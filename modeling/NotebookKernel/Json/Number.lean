import NotebookKernel.Decimal.Shortest
import NotebookKernel.Json.Value

namespace NotebookKernel.Json

/-- The parts of a number literal; a digit is its value. -/
structure Literal where
  negative : Bool
  whole : List Nat
  fraction : List Nat
  /-- Whether the exponent is negative, and its digits. -/
  exponent : Option (Bool × List Nat)
  deriving DecidableEq, Repr

/-- `digits * 10 ^ exponent`, where the digits fit 64 bits. -/
structure Scaled where
  digits : Nat
  exponent : Int
  deriving DecidableEq, Repr

namespace Scaled

def fits (digits : Nat) : Bool := digits < 0x10000000000000000

/-- From the first digit that does not fit on, whole digits only raise the exponent. -/
def takeWhole : Scaled → List Nat → Scaled
  | s, [] => s
  | s, d :: ds =>
    if fits (s.digits * 10 + d) then takeWhole ⟨s.digits * 10 + d, s.exponent⟩ ds
    else ⟨s.digits, s.exponent + (ds.length + 1)⟩

/-- From the first digit that does not fit on, digits of the fraction are dropped. -/
def takeFraction : Scaled → List Nat → Scaled
  | s, [] => s
  | s, d :: ds =>
    if fits (s.digits * 10 + d) then takeFraction ⟨s.digits * 10 + d, s.exponent - 1⟩ ds else s

/-- Powers of ten up to `10 ^ 308` are applied at once, greater ones in steps of that size. `none`
is a number beyond the binary64 range. -/
def toFloat? (s : Scaled) : Option Float :=
  let power (e : Nat) : Float := Float.ofScientific 1 false e
  let start := UInt64.toFloat (.ofNat s.digits)
  if 0 ≤ s.exponent then
    if s.digits = 0 then some start
    else if 308 < s.exponent then none
    else
      let x := start * power s.exponent.toNat
      if x.isInf then none else some x
  else divide s.exponent.natAbs start power
where
  divide (e : Nat) (x : Float) (power : Nat → Float) : Option Float :=
    if e ≤ 308 then some (x / power e)
    else if x == 0.0 then some x
    else divide (e - 308) (x / power 308) power
  termination_by e

end Scaled

namespace Literal

def exponentValue (l : Literal) : Int :=
  match l.exponent with
  | none => 0
  | some (negative, digits) =>
    let e : Nat := digits.foldl (fun e d => e * 10 + d) 0
    if negative then -(e : Int) else e

def scaled (l : Literal) : Scaled :=
  let s := (Scaled.takeWhole ⟨0, 0⟩ l.whole).takeFraction l.fraction
  ⟨s.digits, s.exponent + l.exponentValue⟩

/-- The integer that the literal spells, unless it has a fraction or an exponent, leaves the 64-bit
ranges or is minus zero. -/
def toInt? (l : Literal) : Option Int :=
  let n : Nat := l.whole.foldl (fun n d => n * 10 + d) 0
  if l.fraction ≠ [] ∨ l.exponent ≠ none then none
  else if l.negative then if 0 < n ∧ n ≤ 0x8000000000000000 then some (-n) else none
  else if n < 0x10000000000000000 then some n else none

/-- `none` is a number beyond the binary64 range. -/
def toNumber? (l : Literal) : Option Number :=
  match l.toInt? with
  | some n => some (.int n)
  | none => l.scaled.toFloat?.map fun x => .float (if l.negative then -x else x)

end Literal

/-- How a decimal is laid out: with exponents from `least` up to and excluding `limit` it is written
positionally, with a fraction even when that is zero; otherwise with one digit before the point, no
point after a lone digit, and a signed exponent. -/
structure Layout where
  least : Int
  limit : Int

/-- The layout of the floating-point numbers of JSON texts. -/
def floatLayout : Layout := ⟨-5, 16⟩

def digitChars (n : Nat) : List Char := Nat.toDigits 10 n

def intChars (n : Int) : List Char :=
  if n < 0 then '-' :: digitChars n.natAbs else digitChars n.natAbs

def Layout.chars (layout : Layout) (d : Decimal) : List Char :=
  let digits := digitChars d.digits
  let exponent := d.exponent + (digits.length - 1 : Nat)
  if layout.least ≤ exponent ∧ exponent < layout.limit then
    if 0 ≤ d.exponent then digits ++ List.replicate d.exponent.toNat '0' ++ ['.', '0']
    else if 0 ≤ exponent then
      let whole := exponent.toNat + 1
      digits.take whole ++ '.' :: digits.drop whole
    else ['0', '.'] ++ List.replicate (-exponent - 1).toNat '0' ++ digits
  else
    let mantissa := match digits with
      | [] | [_] => digits
      | first :: rest => first :: '.' :: rest
    mantissa ++ 'e' :: (if exponent < 0 then '-' else '+') :: digitChars exponent.natAbs

/-- What is no finite number has the text `null`. -/
def floatChars (x : Float) : List Char :=
  match Binary64.ofFloat? x with
  | none => ['n', 'u', 'l', 'l']
  | some b =>
    let magnitude := if b.mantissa = 0 then ['0', '.', '0'] else floatLayout.chars (.shortest b)
    if Binary64.signBit x then '-' :: magnitude else magnitude

def Number.chars : Number → List Char
  | .int n => intChars n
  | .float x => floatChars x

end NotebookKernel.Json
