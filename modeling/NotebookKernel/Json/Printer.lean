import NotebookKernel.Json.Number
import NotebookKernel.Json.Text

namespace NotebookKernel.Json

mutual

def Value.chars : Value → List Char
  | .null => ['n', 'u', 'l', 'l']
  | .bool true => ['t', 'r', 'u', 'e']
  | .bool false => ['f', 'a', 'l', 's', 'e']
  | .number n => n.chars
  | .string s => quote s.toList
  | .array items => '[' :: (itemsChars items ++ [']'])
  | .object fields => '\x7b' :: (fieldsChars fields ++ ['\x7d'])

def itemsChars : List Value → List Char
  | [] => []
  | [v] => v.chars
  | v :: rest => v.chars ++ ',' :: itemsChars rest

def fieldsChars : List (String × Value) → List Char
  | [] => []
  | [(k, v)] => quote k.toList ++ ':' :: v.chars
  | (k, v) :: rest => quote k.toList ++ ':' :: (v.chars ++ ',' :: fieldsChars rest)

end

def Value.text (v : Value) : String := String.ofList v.chars

/-- An object whose fields are written already. -/
def recordChars (fields : List (String × List Char)) : List Char :=
  let field (f : String × List Char) := quote f.1.toList ++ ':' :: f.2
  '\x7b' :: (List.intercalate [','] (fields.map field) ++ ['\x7d'])

end NotebookKernel.Json
