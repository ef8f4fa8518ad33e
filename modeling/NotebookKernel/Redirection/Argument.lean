import NotebookKernel.Failure
import NotebookKernel.Json.Number
import NotebookKernel.Text.Quoted

namespace NotebookKernel

/-- Texts that user code passes may hold surrogates, which no message can carry. -/
inductive Argument where
  | nothing
  | bool (b : Bool)
  | int (n : Int)
  | text (points : List Nat)
  | list (items : List Argument)
  /-- Raises an exception when its text is asked for. -/
  | raising (name reason : String)
  deriving Inhabited

/-- The exceptions that user code gets to see. -/
inductive Raised where
  | runtime (failure : Failure)
  /-- A run of surrogates; `length` counts those after the first. -/
  | surrogates (first position length : Nat)
  | wrongArguments
  | noSuchAttribute
  | custom (kind text : String)
  deriving DecidableEq

namespace Raised

def kind : Raised → String
  | runtime _ => "RuntimeError"
  | surrogates .. => "UnicodeEncodeError"
  | wrongArguments => "TypeError"
  | noSuchAttribute => "AttributeError"
  | custom kind _ => kind

/-- Kinds of exceptions that have another name as well. -/
def otherNames : List (String × String) := [("IOError", "OSError"), ("EnvironmentError", "OSError")]

/-- What is said of kinds that cannot be made of a text alone. -/
def refusals : List (String × String) :=
  [("UnicodeDecodeError", "function takes exactly 5 arguments (1 given)"),
    ("UnicodeEncodeError", "function takes exactly 5 arguments (1 given)"),
    ("UnicodeTranslateError", "function takes exactly 4 arguments (1 given)"),
    ("ExceptionGroup", "BaseExceptionGroup.__new__() takes exactly 2 arguments (1 given)"),
    ("BaseExceptionGroup", "BaseExceptionGroup.__new__() takes exactly 2 arguments (1 given)")]

/-- What comes of raising an exception that is made of a text. -/
def ofText (name text : String) : Raised :=
  match refusals.lookup name with
  | some refusal => custom "TypeError" refusal
  | none => custom ((otherNames.lookup name).getD name) text

/-- A missing key is shown as a literal. -/
def message : Raised → String
  | runtime failure => failure.message
  | surrogates first position length =>
    let subject := if length = 0 then
      "character '" ++ String.ofList ('\\' :: 'u' :: Quoted.paddedHex 4 first) ++ "' in position "
        ++ toString position
    else "characters in position " ++ toString position ++ "-" ++ toString (position + length)
    "'utf-8' codec can't encode " ++ subject ++ ": surrogates not allowed"
  | wrongArguments => "wrong arguments"
  | noSuchAttribute => "no such attribute"
  | custom kind text =>
    if kind = "KeyError" then
      String.ofList ((Quoted.literal (Quoted.points text.toList)).map Char.ofNat)
    else text

end Raised

namespace Argument

def isSurrogate (n : Nat) : Bool := 0xD800 ≤ n && n ≤ 0xDFFF

/-- The text as one that a message can carry. -/
def encodable (points : List Nat) : Except Raised String :=
  match points.dropWhile (!isSurrogate ·) with
  | [] => .ok (String.ofList (points.map Char.ofNat))
  | first :: rest => .error (.surrogates first (points.takeWhile (!isSurrogate ·)).length
      (rest.takeWhile isSurrogate).length)

def points (s : String) : List Nat := Quoted.points s.toList

mutual

/-- The text of an item within a list. -/
def literal : Argument → List Nat
  | nothing => points "None"
  | bool true => points "True"
  | bool false => points "False"
  | int n => Quoted.points (Json.intChars n)
  | text ps => Quoted.literal ps
  | list items => '['.toNat :: (literals items ++ [']'.toNat])
  | raising _ _ => points "<object>"

def literals : List Argument → List Nat
  | [] => []
  | [a] => a.literal
  | a :: rest => a.literal ++ points ", " ++ literals rest

end

/-- The text of a value on its own. -/
def shown : Argument → Except Raised (List Nat)
  | text ps => .ok ps
  | raising name reason => .error (.ofText name reason)
  | a => .ok a.literal

/-- Only a text will do. -/
def asText : Argument → Except Raised String
  | text ps => encodable ps
  | _ => .error .wrongArguments

end Argument

end NotebookKernel
