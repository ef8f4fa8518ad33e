import NotebookKernel.Json.Reader
import NotebookKernel.Text.Hex

namespace NotebookKernel.Json

/-- What stands in a written string for `c`. -/
def escapeChar (c : Char) : List Char :=
  if c = '"' then ['\\', '"']
  else if c = '\\' then ['\\', '\\']
  else if c = '\x08' then ['\\', 'b']
  else if c = '\t' then ['\\', 't']
  else if c = '\n' then ['\\', 'n']
  else if c = '\x0c' then ['\\', 'f']
  else if c = '\r' then ['\\', 'r']
  else if c < ' ' then ['\\', 'u', '0', '0', Hex.digit (c.toNat / 16), Hex.digit (c.toNat % 16)]
  else [c]

def quote (s : List Char) : List Char :=
  '"' :: (s.flatMap escapeChar ++ ['"'])

/-- The character that a backslash and this letter stand for. -/
def shortEscape? (c : Char) : Option Char :=
  match c with
  | '"' => some '"'
  | '\\' => some '\\'
  | '/' => some '/'
  | 'b' => some '\x08'
  | 'f' => some '\x0c'
  | 'n' => some '\n'
  | 'r' => some '\r'
  | 't' => some '\t'
  | _ => none

namespace Reader

def utf8Length (cs : List Char) : Nat := cs.foldl (fun n c => n + c.utf8Size) 0

/-- Four hexadecimal digits. With fewer than four bytes left the text has ended too early, whatever
those bytes are. -/
def hex4 : Reader Nat := do
  let cs ← get
  match cs.take 4 |>.mapM Hex.digit? with
  | some [a, b, c, d] =>
    set (cs.drop 4)
    return ((a * 16 + b) * 16 + c) * 16 + d
  | _ => throw (if utf8Length (cs.take 4) < 4 then .endOfInput else .malformed)

def isLeadSurrogate (n : Nat) : Bool := 0xD800 ≤ n && n < 0xDC00

def isTrailSurrogate (n : Nat) : Bool := 0xDC00 ≤ n && n < 0xE000

/-- What follows `\u`: a code unit, and the second one of a surrogate pair. -/
def unicodeEscape : Reader Char := do
  let unit ← hex4
  if isTrailSurrogate unit then throw .malformed
  if isLeadSurrogate unit then
    word ['\\', 'u']
    let trail ← hex4
    if isTrailSurrogate trail then
      return Char.ofNat (0x10000 + (unit - 0xD800) * 0x400 + (trail - 0xDC00))
    else throw .malformed
  return Char.ofNat unit

/-- What follows `\u` where only its digits are checked. -/
def looseUnicodeEscape : Reader Char := do
  return Char.ofNat (← hex4)

def escapeWith (unicode : Reader Char) : Reader Char := do
  match ← get with
  | [] => throw .endOfInput
  | c :: rest =>
    set rest
    if c = 'u' then unicode
    else match shortEscape? c with
      | some c => return c
      | none => throw .malformed

/-- The rest of a string behind its opening quotation mark. Every round consumes a character, so the
text itself bounds the number of rounds. -/
def stringBody (unicode : Reader Char) : List Char → List Char → Reader (List Char)
  | [], _ => throw .endOfInput
  | _ :: bound, seen => do
    match ← get with
    | [] => throw .endOfInput
    | c :: rest =>
      set rest
      if c = '"' then return seen.reverse
      else if c = '\\' then
        let c ← escapeWith unicode
        stringBody unicode bound (c :: seen)
      else if c < ' ' then throw .malformed
      else stringBody unicode bound (c :: seen)

def string : Reader String := do
  word ['"']
  return String.ofList (← stringBody unicodeEscape (← get) [])

/-- Passes over a string, lone surrogate escapes included. -/
def skipString : Reader Unit := do
  word ['"']
  let _ ← stringBody looseUnicodeEscape (← get) []

end Reader

end NotebookKernel.Json
