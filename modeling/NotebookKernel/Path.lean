import NotebookKernel.Text.Utf8

namespace NotebookKernel

/-- Names between slashes. They are bytes, and need not be a text. -/
abbrev Path := List UInt8

namespace Path

def ofText (text : String) : Path := Utf8.encode text.toList

/-- What a path is shown as. -/
def shown (path : Path) : String := String.ofList (Utf8.decodeReplacing path)

def separator : UInt8 := 0x2F

/-- Stays in place. -/
def here : Path := [0x2E]

def parent : Path := [0x2E, 0x2E]

/-- Puts a separator between a directory and what lies in it, unless the directory ends with one. -/
def join (directory rest : Path) : Path :=
  match directory.getLast? with
  | none => rest
  | some b => if b = separator then directory ++ rest else directory ++ separator :: rest

def isAbsolute (path : Path) : Bool := path.head? == some separator

/-- The names on the way; a slash at the end stands for a last step without a name, which only a directory
allows. -/
def steps (path : Path) : List Path :=
  let parts := path.splitOn separator
  let names := parts.filter (!·.isEmpty)
  if names.isEmpty || !(parts.getLast?.any List.isEmpty) then names else names ++ [[]]

/-- A part of a path that leads nowhere. -/
def isIdle (part : Path) : Bool := part == [] || part == here

/-- Without the idle parts at both ends; those in between stay as they are. -/
def trimIdle (path : Path) : Path :=
  let parts := (path.splitOn separator).dropWhile isIdle
  [separator].intercalate (parts.reverse.dropWhile isIdle).reverse

/-- A first component `~` stands for the home directory, for whoever has one. -/
def expandHome (home path : Path) : Path :=
  if home.isEmpty then path
  else match path with
    | [0x7E] => join home []
    | 0x7E :: b :: rest => if b = separator then join home (trimIdle rest) else path
    | _ => path

end Path

end NotebookKernel
