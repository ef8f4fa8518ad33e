namespace NotebookKernel.Json

/-- Why a text or a value was not accepted. -/
inductive Fault where
  /-- The text ends too early. -/
  | endOfInput
  /-- The text is not JSON, or nests too deeply, or holds a number beyond every range. -/
  | malformed
  /-- The JSON is well formed but not of the wanted type. -/
  | mismatch
  deriving DecidableEq, Repr

abbrev Reader := StateT (List Char) (Except Fault)

/-- The four characters that may stand between tokens. -/
def isBlank (c : Char) : Bool := c == ' ' || c == '\n' || c == '\t' || c == '\r'

namespace Reader

def skipBlanks : Reader Unit := modify (·.dropWhile isBlank)

/-- The text from the next token on, which must exist. -/
def upcoming : Reader (List Char) := do
  skipBlanks
  let cs ← get
  if cs.isEmpty then throw .endOfInput
  return cs

/-- Consumes a token of one character. -/
def token (c : Char) : Reader Unit := do
  match ← upcoming with
  | next :: rest => if next = c then set rest else throw .malformed
  | [] => throw .endOfInput

/-- Consumes exactly these characters. -/
def word : List Char → Reader Unit
  | [] => return ()
  | c :: cs => do
    match ← get with
    | [] => throw .endOfInput
    | next :: rest => if next = c then do set rest; word cs else throw .malformed

/-- A comma and an item until `close`. Every round consumes a comma, so the text itself bounds the
number of rounds. -/
def moreItems {σ : Type} (close : Char) (item : σ → Reader σ) : List Char → σ → Reader σ
  | [], _ => throw .endOfInput
  | _ :: bound, s => do
    match ← upcoming with
    | [] => throw .endOfInput
    | next :: rest =>
      set rest
      if next = close then return s
      else if next = ',' then moreItems close item bound (← item s)
      else throw .malformed

/-- The items of an opened array or object, separated by commas, and its closing bracket. -/
def items {σ : Type} (close : Char) (item : σ → Reader σ) (s : σ) : Reader σ := do
  match ← upcoming with
  | [] => throw .endOfInput
  | next :: rest =>
    if next = close then do set rest; return s
    else
      let s ← item s
      moreItems close item (← get) s

/-- Nothing but blanks may follow what is read. -/
def whole {α : Type} (reader : Reader α) (text : List Char) : Except Fault α := do
  let (a, rest) ← reader.run text
  if (rest.dropWhile isBlank).isEmpty then return a else throw .malformed

end Reader

end NotebookKernel.Json
