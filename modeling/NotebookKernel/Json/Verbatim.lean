import NotebookKernel.Json.Parser

namespace NotebookKernel.Json.Reader

/-- Passes over a value, of which only the grammar is checked. `depth` bounds the brackets open at once; the
length of the text is always enough. -/
def skipWithin (depth : Nat) : Reader Unit := do
  match ← upcoming with
  | [] => throw .endOfInput
  | c :: rest =>
    if c = '[' then
      match depth with
      | 0 => throw .malformed
      | depth + 1 => set rest; items ']' (fun _ => skipWithin depth) ()
    else if c = '\x7b' then
      match depth with
      | 0 => throw .malformed
      | depth + 1 =>
        set rest
        let field (_ : Unit) : Reader Unit := do
          match ← upcoming with
          | '"' :: _ => skipString
          | _ => throw .malformed
          token ':'
          skipWithin depth
        items '\x7d' field ()
    else if c = '"' then skipString
    else if c = '-' ∨ isDigit c then
      let _ ← literal .malformed
    else
      let _ ← scalar c

def skip : Reader Unit := fun cs => skipWithin cs.length cs

/-- The text of a value as it stands, without the blanks around it. -/
def verbatim : Reader (List Char) := do
  let cs ← upcoming
  skip
  let rest ← get
  return cs.take (cs.length - rest.length)

end NotebookKernel.Json.Reader
