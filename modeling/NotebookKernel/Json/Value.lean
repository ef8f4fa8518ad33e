namespace NotebookKernel.Json

/-- Integers stay exact; every other number is a binary64. -/
inductive Number where
  | int (n : Int)
  | float (x : Float)
  deriving Inhabited

/-- The fields of an object stand in the order of their keys, and no key stands twice. -/
inductive Value where
  | null
  | bool (b : Bool)
  | number (n : Number)
  | string (s : String)
  | array (items : List Value)
  | object (fields : List (String × Value))
  deriving Inhabited

/-- Keys are ordered by code point, which is also the order of their UTF-8 bytes. -/
def insertField (key : String) (value : Value) :
    List (String × Value) → List (String × Value)
  | [] => [(key, value)]
  | (k, v) :: rest =>
    if key < k then (key, value) :: (k, v) :: rest
    else if key = k then (key, value) :: rest
    else (k, v) :: insertField key value rest

def insertFields (new fields : List (String × Value)) : List (String × Value) :=
  new.foldl (fun fields field => insertField field.1 field.2 fields) fields

namespace Value

def ofFields (fields : List (String × Value)) : Value :=
  .object (insertFields fields [])

def ofInt (n : Int) : Value := .number (.int n)

def ofNat (n : Nat) : Value := ofInt n

def emptyObject : Value := .object []

/-- The field of an object; nothing is found in any other value. -/
def get? (v : Value) (key : String) : Option Value :=
  match v with
  | .object fields => fields.lookup key
  | _ => none

def asString? : Value → Option String
  | .string s => some s
  | _ => none

def asBool? : Value → Option Bool
  | .bool b => some b
  | _ => none

/-- An integer within the signed 64-bit range. -/
def asInt64? : Value → Option Int
  | .number (.int n) => if -0x8000000000000000 ≤ n ∧ n < 0x8000000000000000 then some n else none
  | _ => none

def asArray? : Value → Option (List Value)
  | .array items => some items
  | _ => none

def asFields? : Value → Option (List (String × Value))
  | .object fields => some fields
  | _ => none

end Value

@[simp] theorem insertFields_nil (fields : List (String × Value)) : insertFields [] fields = fields := rfl

@[simp] theorem insertFields_cons (key : String) (value : Value) (new fields : List (String × Value)) :
    insertFields ((key, value) :: new) fields = insertFields new (insertField key value fields) := rfl

@[simp] theorem insertField_nil (key : String) (value : Value) : insertField key value [] = [(key, value)] :=
  rfl

theorem insertField_of_lt {key k : String} (h : key < k) (value v : Value)
    (fields : List (String × Value)) :
    insertField key value ((k, v) :: fields) = (key, value) :: (k, v) :: fields := if_pos h

theorem insertField_of_gt {key k : String} (h : k < key) (value v : Value)
    (fields : List (String × Value)) :
    insertField key value ((k, v) :: fields) = (k, v) :: insertField key value fields := by
  have hne : ¬ key = k := fun he => String.lt_irrefl k (he ▸ h)
  rw [insertField, if_neg (String.lt_asymm h), if_neg hne]

theorem lookup_insertField_self (key : String) (value : Value) (fields : List (String × Value)) :
    (insertField key value fields).lookup key = some value := by
  induction fields with
  | nil => simp [insertField]
  | cons field rest ih =>
    obtain ⟨k, v⟩ := field
    simp only [insertField]
    split
    · simp
    · split
      · simp
      · rename_i h
        simp [List.lookup_cons, beq_false_of_ne h, ih]

theorem lookup_insertField_of_ne {key other : String} (h : other ≠ key) (value : Value)
    (fields : List (String × Value)) :
    (insertField key value fields).lookup other = fields.lookup other := by
  have hb : (other == key) = false := beq_false_of_ne h
  induction fields with
  | nil => simp [insertField, List.lookup_cons, hb]
  | cons field rest ih =>
    obtain ⟨k, v⟩ := field
    simp only [insertField]
    split
    · rw [List.lookup_cons, hb]
    · split
      · rename_i hk
        subst hk
        rw [List.lookup_cons, List.lookup_cons, hb]
      · rw [List.lookup_cons, List.lookup_cons, ih]

end NotebookKernel.Json
