import NotebookKernel.Json.Value
import NotebookKernel.Pattern

namespace NotebookKernel

open Json

/-- A stored cell. -/
structure Entry where
  session : Int
  line : Int
  input : String
  deriving DecidableEq, Repr

/-- Entries stand in the order in which they were stored. -/
structure History where
  entries : List Entry
  deriving DecidableEq, Repr

inductive Query where
  | tail (n : Nat)
  /-- Lines from `start` up to and excluding `stop`. -/
  | range (session start stop : Int)
  | search (pattern : String) (limit : Option Nat) (unique : Bool)
  deriving DecidableEq, Repr

namespace Query

/-- Numbers that are no 64-bit integers count as absent, negative limits as zero. -/
def ofContent? (content : Value) : Option Query :=
  let int (key : String) : Option Int := (content.get? key).bind Value.asInt64?
  let text (key : String) : Option String := (content.get? key).bind Value.asString?
  match text "hist_access_type" with
  | some "tail" => some (.tail ((int "n").getD 10).toNat)
  | some "range" => some (.range ((int "session").getD 0) ((int "start").getD 0)
      ((int "stop").getD 0x7FFFFFFFFFFFFFFF))
  | some "search" => some (.search ((text "pattern").getD "*") ((int "n").map Int.toNat)
      (((content.get? "unique").bind Value.asBool?).getD false))
  | _ => none

/-- A number in a query. -/
def asked (content : Value) (key : String) (default : Int) : Int :=
  ((content.get? key).bind Value.asInt64?).getD default

theorem ofContent?_tail {content : Value}
    (h : content.get? "hist_access_type" = some (.string "tail")) :
    ofContent? content = some (.tail (asked content "n" 10).toNat) := by
  simp only [ofContent?, h, Option.bind_some, Value.asString?]
  rfl

theorem ofContent?_range {content : Value}
    (h : content.get? "hist_access_type" = some (.string "range")) :
    ofContent? content = some (.range (asked content "session" 0) (asked content "start" 0)
      (asked content "stop" 0x7FFFFFFFFFFFFFFF)) := by
  simp only [ofContent?, h, Option.bind_some, Value.asString?]
  rfl

end Query

namespace History

def empty : History := ⟨[]⟩

/-- The history of a process is that of one session, number 0. -/
def store (h : History) (line : Int) (input : String) : History :=
  ⟨h.entries ++ [⟨0, line, input⟩]⟩

/-- Goes from the newest entry to the oldest, so that of equal inputs the latest is found. The limit
is looked at after an entry was found. -/
def find (wanted : String → Bool) (limit : Option Nat) (unique : Bool) :
    List Entry → List Entry → List Entry
  | found, [] => found
  | found, e :: older =>
    if !wanted e.input || (unique && found.any (·.input == e.input)) then
      find wanted limit unique found older
    else if limit.any (· ≤ found.length + 1) then e :: found
    else find wanted limit unique (e :: found) older

/-- Entries are answered in the order in which they were stored; an invalid pattern finds none. -/
def query (h : History) : Query → List Entry
  | .tail n => h.entries.drop (h.entries.length - n)
  | .range session start stop =>
    h.entries.filter fun e => e.session == session && start ≤ e.line && e.line < stop
  | .search pattern limit unique =>
    match Pattern.ofString? pattern with
    | none => []
    | some p => find p.matches limit unique [] h.entries.reverse

/-- The answer to a request; one that is no query finds nothing. -/
def shown (h : History) (content : Value) : List Entry :=
  match Query.ofContent? content with
  | some q => h.query q
  | none => []

end History

def Entry.toValue (e : Entry) : Value :=
  .array [.ofInt e.session, .ofInt e.line, .string e.input]

end NotebookKernel
