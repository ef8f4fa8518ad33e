import NotebookKernel.Decimal.Binary64

namespace NotebookKernel

/-- The number `digits * 10 ^ exponent`. -/
structure Decimal where
  digits : Nat
  exponent : Int
  deriving DecidableEq, Repr

namespace Decimal

/-- The multiples of `10 ^ k` next to `x` that round to `x`, the preferred one first. -/
def gridNeighbours (x : Binary64) (k : Int) : List Nat :=
  let scale := x.exponent - 2
  let num := Nat.pow 2 scale.toNat * Nat.pow 10 (-k).toNat
  let den := Nat.pow 2 (-scale).toNat * Nat.pow 10 k.toNat
  let exact := 4 * x.mantissa * num
  let below := exact / den
  let (low, high) := x.quarterBounds
  let inside (c : Nat) : Bool :=
    c != 0 && if x.mantissa % 2 == 0 then low * num ≤ c * den && c * den ≤ high * num
      else low * num < c * den && c * den < high * num
  let toBelow := exact - below * den
  let toAbove := (below + 1) * den - exact
  let belowFirst := toBelow < toAbove || (toBelow == toAbove && below % 2 == 0)
  (if belowFirst then [below, below + 1] else [below + 1, below]).filter inside

/-- The shortest decimal that reads back as `x` is a multiple of the greatest power of ten that has a multiple
which rounds to `x`. `10 ^ 309` exceeds every binary64, and some multiple of `10 ^ (-343)` rounds to any of
them. -/
def shortest (x : Binary64) : Decimal :=
  let onGrid (i : Nat) : Option Decimal :=
    let k := 309 - (i : Int)
    (gridNeighbours x k).head?.map (⟨·, k⟩)
  ((List.range 653).findSome? onGrid).getD ⟨0, 0⟩

end Decimal

end NotebookKernel
