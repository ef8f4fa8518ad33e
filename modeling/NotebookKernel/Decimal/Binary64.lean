namespace NotebookKernel

/-- The magnitude of a finite binary64: `mantissa * 2 ^ exponent`. -/
structure Binary64 where
  mantissa : Nat
  exponent : Int
  deriving DecidableEq

namespace Binary64

def signBit (x : Float) : Bool := x.toBits ≥ 0x8000000000000000

/-- `none` for an infinity and for what is no number. -/
def ofFloat? (x : Float) : Option Binary64 :=
  let bits : Nat := x.toBits.toNat % 0x8000000000000000
  let biased : Nat := bits / 0x10000000000000
  let fraction : Nat := bits % 0x10000000000000
  if biased = 2047 then none
  else if biased = 0 then some ⟨fraction, -1074⟩
  else some ⟨fraction + 0x10000000000000, (biased : Int) - 1075⟩

/-- The gap below the least mantissa of a binade is half of the gap above it. -/
def hasNarrowGapBelow (x : Binary64) : Bool :=
  x.mantissa == 0x10000000000000 && x.exponent != -1074

/-- The ends of the interval that rounds to `x`, in quarters of its last place; both belong to it
when the mantissa is even. -/
def quarterBounds (x : Binary64) : Nat × Nat :=
  (4 * x.mantissa - if x.hasNarrowGapBelow then 1 else 2, 4 * x.mantissa + 2)

end Binary64

end NotebookKernel
