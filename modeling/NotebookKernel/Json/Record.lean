import NotebookKernel.Json.Verbatim

namespace NotebookKernel.Json

/-- How values of a type are read from a text and taken from a value. `read` takes the number of
brackets that may still be opened. -/
structure Form (α : Type) where
  read : Nat → Reader α
  ofValue : Value → Except Fault α

namespace Form

def map {α β : Type} (f : α → β) (form : Form α) : Form β where
  read depth := f <$> form.read depth
  ofValue v := f <$> form.ofValue v

def text : Form String where
  read _ := Reader.onlyString
  ofValue
    | .string s => .ok s
    | _ => .error .mismatch

def wordOfNumber? : Number → Option UInt16
  | .int n => if 0 ≤ n ∧ n < 0x10000 then some (.ofNat n.toNat) else none
  | .float _ => none

/-- A number from 0 to 65535. -/
def word16 : Form UInt16 where
  read _ := do
    match ← Reader.upcoming with
    | [] => throw .endOfInput
    | c :: _ =>
      if c = '-' ∨ Reader.isDigit c then
        match wordOfNumber? (← Reader.number) with
        | some w => return w
        | none => throw .mismatch
      else Reader.refuse
  ofValue
    | .number n => match wordOfNumber? n with
      | some w => .ok w
      | none => .error .mismatch
    | _ => .error .mismatch

/-- The text of any value; it can only be had from a text. -/
def verbatim : Form (List Char) where
  read _ := Reader.verbatim
  ofValue _ := .error .mismatch

mutual

/-- Replaces the objects that stand for the value of a text, wherever their key comes first. -/
def settle : Value → Except Fault Value
  | .array items => do return .array (← settleItems items)
  | .object [] => .ok (.object [])
  | .object ((k, v) :: rest) =>
    if k = verbatimKey then
      match v, rest with
      | .string s, [] => match Value.parse s.toList with
        | .ok v => .ok v
        | .error _ => .error .mismatch
      | _, _ => .error .mismatch
    else do return .object (← settleFields ((k, v) :: rest))
  | v => .ok v

def settleItems : List Value → Except Fault (List Value)
  | [] => .ok []
  | v :: rest => do return (← settle v) :: (← settleItems rest)

def settleFields : List (String × Value) → Except Fault (List (String × Value))
  | [] => .ok []
  | (k, v) :: rest => do return (k, ← settle v) :: (← settleFields rest)

end

def any : Form Value where
  read := Reader.value
  ofValue := settle

end Form

/-- A field of a record that is collected in a draft of type `P`. -/
structure Field (P : Type) where
  name : String
  isSet : P → Bool
  form : Form (P → P)
  /-- The draft without the field, unless the field is required. -/
  unset : P → Except Fault P

def Field.of {P α : Type} (name : String) (form : Form α) (fetch : P → Option α)
    (put : α → P → P) (default : Option α) : Field P where
  name := name
  isSet p := (fetch p).isSome
  form := form.map put
  unset p := match default with
    | some a => .ok (put a p)
    | none => .error .mismatch

/-- The fields of a record, and what a full draft amounts to. A record is read from an object, where unknown
keys are passed over, or from an array of its fields in order. -/
structure Record (P α : Type) where
  fields : List (Field P)
  blank : P
  finish : P → Option α

namespace Record

variable {P α : Type}

def complete (r : Record P α) (p : P) : Except Fault α := do
  let p ← r.fields.foldlM (fun p f => if f.isSet p then pure p else f.unset p) p
  match r.finish p with
  | some a => return a
  | none => throw .mismatch

def fieldNamed? (r : Record P α) (name : String) : Option (Field P) :=
  r.fields.find? (·.name == name)

/-- A key and its value, within an object. A repeated key is refused before its value. -/
def readField (r : Record P α) (depth : Nat) (p : P) : Reader P := do
  match r.fieldNamed? (← Reader.key) with
  | some f =>
    if f.isSet p then throw .mismatch
    Reader.token ':'
    return (← f.form.read depth) p
  | none =>
    Reader.token ':'
    Reader.skip
    return p

/-- The elements of an opened array that are left for `fields`, up to where the array ends. -/
def readElements (depth : Nat) (isFirst : Bool) : List (Field P) → P → Reader P
  | [], p => return p
  | f :: fields, p => do
    match ← Reader.upcoming with
    | [] => throw .endOfInput
    | c :: rest =>
      if c = ']' then return p
      else if isFirst then readElements depth false fields ((← f.form.read depth) p)
      else if c = ',' then
        set rest
        readElements depth false fields ((← f.form.read depth) p)
      else throw .malformed

def read (r : Record P α) (depth : Nat) : Reader α := do
  match ← Reader.upcoming with
  | [] => throw .endOfInput
  | c :: rest =>
    if c = '\x7b' then
      match depth with
      | 0 => throw .malformed
      | depth + 1 =>
        set rest
        r.complete (← Reader.items '\x7d' (r.readField depth) r.blank)
    else if c = '[' then
      match depth with
      | 0 => throw .malformed
      | depth + 1 =>
        set rest
        let a ← r.complete (← readElements depth true r.fields r.blank)
        Reader.token ']'
        return a
    else Reader.refuse

def takeElements : List (Field P) → List Value → P → Except Fault P
  | [], [], p => .ok p
  | [], _ :: _, _ => .error .mismatch
  | _ :: _, [], p => .ok p
  | f :: fields, v :: vs, p => do takeElements fields vs ((← f.form.ofValue v) p)

def ofValue (r : Record P α) : Value → Except Fault α
  | .object fields => do
    r.complete (← fields.foldlM (fun p field => match r.fieldNamed? field.1 with
      | some f => do return (← f.form.ofValue field.2) p
      | none => pure p) r.blank)
  | .array items => do r.complete (← takeElements r.fields items r.blank)
  | _ => .error .mismatch

def form (r : Record P α) : Form α := ⟨r.read, r.ofValue⟩

def parse (r : Record P α) (text : List Char) : Except Fault α :=
  Reader.whole (r.read depthLimit) text

end Record

end NotebookKernel.Json
