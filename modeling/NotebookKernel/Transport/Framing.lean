import NotebookKernel.Text.Utf8

namespace NotebookKernel.Framing

def newline : UInt8 := 10

def carriageReturn : UInt8 := 13

/-- The lines of a stream so far, and the bytes of a line that has not ended yet; there are none when
the stream broke on a line that is too long or no text. -/
structure Framed where
  lines : List (List Char)
  rest : Option (List UInt8)
  deriving DecidableEq

def withoutReturn (line : List UInt8) : List UInt8 :=
  if line.getLast? = some carriageReturn then line.dropLast else line

def text? (line : List UInt8) : Option (List Char) := Utf8.decode? (withoutReturn line)

/-- The pieces between newlines; the last one has not ended yet. The length of a line is measured
with its carriage return. -/
def ofPieces (limit : Nat) : List (List UInt8) → Framed
  | [] => ⟨[], some []⟩
  | [rest] => ⟨[], if rest.length ≤ limit then some rest else none⟩
  | line :: more =>
    match if line.length ≤ limit then text? line else none with
    | none => ⟨[], none⟩
    | some text =>
      let framed := ofPieces limit more
      { framed with lines := text :: framed.lines }

def frame (limit : Nat) (bytes : List UInt8) : Framed := ofPieces limit (bytes.splitOn newline)

/-- What is left when a stream ends is a line of its own, but for a lone carriage return. -/
def finish (framed : Framed) : List (List Char) :=
  match framed.rest with
  | none | some [] => framed.lines
  | some rest =>
    if rest = [carriageReturn] then framed.lines
    else framed.lines ++ (text? rest).toList

end NotebookKernel.Framing
