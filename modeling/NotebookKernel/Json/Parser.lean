import NotebookKernel.Json.Number
import NotebookKernel.Json.Text

namespace NotebookKernel.Json

/-- An object with this key alone carries the text of the value that it stands for. -/
def verbatimKey : String := "$serde_json::private::RawValue"

/-- How many brackets may be open at once. -/
def depthLimit : Nat := 127

namespace Reader

def isDigit (c : Char) : Bool := '0' ≤ c && c ≤ '9'

def digits : Reader (List Nat) := do
  let cs ← get
  set (cs.dropWhile isDigit)
  return (cs.takeWhile isDigit).map fun c => c.toNat - '0'.toNat

/-- At least one digit; a text that ends instead has the fault `cut`. -/
def someDigits (cut : Fault) : Reader (List Nat) := do
  match ← get with
  | [] => throw cut
  | c :: _ => if isDigit c then digits else throw .malformed

def wholeDigits (cut : Fault) : Reader (List Nat) := do
  let ds ← someDigits cut
  match ds with
  | 0 :: _ :: _ => throw .malformed
  | _ => return ds

def fractionDigits (cut : Fault) : Reader (List Nat) := do
  match ← get with
  | '.' :: rest => set rest; someDigits cut
  | _ => return []

def exponentDigits (cut : Fault) : Reader (Option (Bool × List Nat)) := do
  match ← get with
  | c :: rest =>
    if c = 'e' ∨ c = 'E' then
      match rest with
      | '+' :: rest => set rest; return some (false, ← someDigits cut)
      | '-' :: rest => set rest; return some (true, ← someDigits cut)
      | rest => set rest; return some (false, ← someDigits cut)
    else return none
  | [] => return none

/-- A number literal; a text that ends within it has the fault `cut`. -/
def literal (cut : Fault) : Reader Literal := do
  let negative := (← get).head? == some '-'
  if negative then modify (·.drop 1)
  let ds ← wholeDigits cut
  let fraction ← fractionDigits cut
  return ⟨negative, ds, fraction, ← exponentDigits cut⟩

def number : Reader Number := do
  match (← literal .endOfInput).toNumber? with
  | some n => return n
  | none => throw .malformed

/-- A value that starts with `c` and is neither an array nor an object. -/
def scalar (c : Char) : Reader Value := do
  if c = '"' then return .string (← string)
  else if c = '-' ∨ isDigit c then return .number (← number)
  else if c = 'n' then do word ['n', 'u', 'l', 'l']; return .null
  else if c = 't' then do word ['t', 'r', 'u', 'e']; return .bool true
  else if c = 'f' then do word ['f', 'a', 'l', 's', 'e']; return .bool false
  else throw .malformed

/-- Accepts no value: a scalar is read first, so that its own faults come first. -/
def refuse {α : Type} : Reader α := do
  match ← upcoming with
  | [] => throw .endOfInput
  | c :: _ =>
    if c = '[' ∨ c = '\x7b' then throw .mismatch
    let _ ← scalar c
    throw .mismatch

/-- A string where nothing else will do. -/
def onlyString : Reader String := do
  match ← upcoming with
  | '"' :: _ => string
  | _ => refuse

/-- The key of a field. -/
def key : Reader String := do
  match ← upcoming with
  | '"' :: _ => string
  | _ => throw .malformed

/-- The rest of an object that stands for the value of a text. -/
def embeddedValue (embedded : List Char → Except Fault Value) : Reader Value := do
  token ':'
  let text ← onlyString
  match embedded text.toList with
  | .error _ => throw .mismatch
  | .ok v => do token '\x7d'; return v

/-- A value with at most `depth` brackets open at once; `embedded` reads embedded texts. -/
def valueWith (embedded : List Char → Except Fault Value) (depth : Nat) : Reader Value := do
  match ← upcoming with
  | [] => throw .endOfInput
  | c :: rest =>
    if c = '[' then
      match depth with
      | 0 => throw .malformed
      | depth + 1 =>
        set rest
        let vs ← items ']' (fun vs => do return (← valueWith embedded depth) :: vs) []
        return .array vs.reverse
    else if c = '\x7b' then
      match depth with
      | 0 => throw .malformed
      | depth + 1 =>
        set rest
        let field (fields : List (String × Value)) : Reader (List (String × Value)) := do
          let k ← key
          token ':'
          return insertField k (← valueWith embedded depth) fields
        match ← upcoming with
        | '\x7d' :: rest => set rest; return .object []
        | _ =>
          let k ← key
          if k = verbatimKey then embeddedValue embedded
          else
            token ':'
            let first := [(k, ← valueWith embedded depth)]
            return .object (← moreItems '\x7d' field (← get) first)
    else scalar c

/-- The value of a text in which texts are embedded at most `n - 1` levels deep. -/
def embeddedText : Nat → List Char → Except Fault Value
  | 0 => fun _ => throw .endOfInput
  | n + 1 => whole (valueWith (embeddedText n) depthLimit)

/-- An embedded text is shorter than the text around it, whose length therefore bounds their
levels. -/
def value (depth : Nat) : Reader Value := fun cs =>
  valueWith (embeddedText cs.length) depth cs

end Reader

namespace Value

def parse (text : List Char) : Except Fault Value :=
  Reader.whole (Reader.value depthLimit) text

end Value

end NotebookKernel.Json
