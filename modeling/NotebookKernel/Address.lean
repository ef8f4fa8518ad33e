import NotebookKernel.Text.Hex

namespace NotebookKernel

/-- A number of 128 bits. IPv4 addresses are a block of 32 bits among them. -/
structure Address where
  number : Nat
  deriving DecidableEq, Repr

namespace Address

def v4Block : Nat := 0xFFFF

def ofV4 (n : Nat) : Address := ⟨v4Block * 0x100000000 + n⟩

def isV4 (a : Address) : Bool := a.number / 0x100000000 == v4Block

/-- Stands for all addresses of a machine. -/
def any : Address := ⟨0⟩

def anyV4 : Address := ofV4 0

def loopback : Address := ofV4 0x7F000001

/-- Whom packets to these addresses reach depends on the network that they are sent on. -/
def isScoped (a : Address) : Bool :=
  a.number >>> 120 == 0xFF || a.number >>> 118 == 0xFE80 >>> 6

/-- Listeners on these addresses get in each other's way on a port that they share. -/
def overlaps (a b : Address) : Bool :=
  a == b || a == any || b == any || (a.isV4 && b.isV4 && (a == anyV4 || b == anyV4))

def number? (base : Nat) (digits : List Char) : Option Nat :=
  digits.foldlM (fun n c => do
    let d ← Hex.digit? c
    if d < base then some (base * n + d) else none) 0

/-- A decimal number, after `0` an octal and after `0x` a hexadecimal one. -/
def part? : List Char → Option Nat
  | [] => none
  | '0' :: 'x' :: ds | '0' :: 'X' :: ds => if ds.isEmpty then none else number? 16 ds
  | '0' :: ds => number? 8 ds
  | ds => number? 10 ds

/-- All parts but the last are bytes; the last one fills the bytes that are left. -/
def ofParts? : (bytes : Nat) → List Nat → Option Nat
  | 0, _ | _, [] => none
  | bytes + 1, [n] => if n < Nat.pow 256 (bytes + 1) then some n else none
  | bytes + 1, n :: rest =>
    if n < 256 then (ofParts? bytes rest).map (n * Nat.pow 256 bytes + ·) else none

/-- One to four numbers with dots between them. -/
def v4Number? (cs : List Char) : Option Nat := do ofParts? 4 (← (cs.splitOn '.').mapM part?)

/-- Four decimal bytes without needless zeros. -/
def dotted? (cs : List Char) : Option Nat :=
  let parts := cs.splitOn '.'
  if parts.length = 4 && parts.all (fun p => p == ['0'] || p.head? != some '0') then v4Number? cs
  else none

def group? (digits : List Char) : Option Nat :=
  if digits.isEmpty || 4 < digits.length then none else number? 16 digits

def groups? (cs : List Char) : Option (List Nat) :=
  if cs.isEmpty then some [] else (cs.splitOn ':').mapM group?

/-- Groups, of which the last two may be written as four decimal bytes. -/
def lastGroups? (cs : List Char) : Option (List Nat) :=
  match groups? cs with
  | some groups => some groups
  | none => do
    let parts := cs.splitOn ':'
    let groups ← parts.dropLast.mapM group?
    let n ← dotted? (parts.getLast?.getD [])
    return groups ++ [n / 0x10000, n % 0x10000]

/-- What stands before and behind the first two colons in a row. -/
def splitGap : List Char → Option (List Char × List Char)
  | [] => none
  | ':' :: ':' :: rest => some ([], rest)
  | c :: rest => (splitGap rest).map fun (before, after) => (c :: before, after)

def ofGroups (groups : List Nat) : Address := ⟨groups.foldl (fun n g => n * 0x10000 + g) 0⟩

/-- Eight groups of digits; two colons in a row stand for one or more groups that are zero. -/
def v6? (cs : List Char) : Option Address :=
  match splitGap cs with
  | none => do
    let groups ← lastGroups? cs
    if groups.length = 8 then some (ofGroups groups) else none
  | some (before, after) => do
    let first ← groups? before
    let last ← lastGroups? after
    let given := first.length + last.length
    if given < 8 then some (ofGroups (first ++ List.replicate (8 - given) 0 ++ last)) else none

def ofText? (cs : List Char) : Option Address :=
  match v4Number? cs with
  | some n => some (ofV4 n)
  | none => v6? cs

end Address

/-- Why there is no address for a name. -/
inductive NameFault where
  | nulInName
  /-- This can be no name of a machine. -/
  | notName
  /-- The name servers that know do not answer. -/
  | noAnswer
  deriving DecidableEq, Repr

def NameFault.message : NameFault → String
  | nulInName => "file name contained an unexpected NUL byte"
  | notName => "failed to lookup address information: Name or service not known"
  | noAnswer => "failed to lookup address information: Temporary failure in name resolution"

namespace Address

def isNameChar (c : Char) : Bool := c.isAlphanum || c == '-' || c == '_' || c == '.'

/-- The parts of a name; a dot at its end may be left out. -/
def labels (name : List Char) : List (List Char) :=
  let parts := name.splitOn '.'
  if parts.getLast? = some [] then parts.dropLast else parts

/-- A label has 1 to 63 characters; a name takes up at most 255 bytes, one more for every label and
one for its end. -/
def isName (name : List Char) : Bool :=
  name.all isNameChar && name.head? != some '-' && (labels name == [[]] ||
    ((labels name).all (fun l => 1 ≤ l.length && l.length ≤ 63) &&
      (labels name).foldl (fun n l => n + l.length + 1) 0 < 255)) && !name.isEmpty

/-- Only one name is known without asking. -/
def ofName (name : String) : Except NameFault Address :=
  let cs := name.toList
  if cs.contains '\x00' then .error .nulInName
  else match ofText? cs with
    | some a => .ok a
    | none =>
      if String.ofList (cs.map Char.toLower) = "localhost" then .ok loopback
      else .error (if isName cs then .noAnswer else .notName)

end Address

end NotebookKernel
