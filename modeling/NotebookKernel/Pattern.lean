namespace NotebookKernel

namespace Pattern

/-- The members of a bracketed set. -/
inductive Member where
  | single (c : Char)
  | range (first last : Char)
  deriving DecidableEq, Repr

def Member.contains (c : Char) : Member → Bool
  | single a => a == c
  | range first last => first ≤ c && c ≤ last

/-- A hyphen between two characters makes a range of them. -/
def members : List Char → List Member
  | first :: '-' :: last :: rest => .range first last :: members rest
  | c :: rest => .single c :: members rest
  | [] => []

/-- `?` is met by a character, `*` by any text, and `**` by any number of whole path components. -/
inductive Token where
  | literal (c : Char)
  | anyChar
  | oneOf (set : List Member)
  | noneOf (set : List Member)
  /-- Any text, separators included. -/
  | anyText
  /-- Any number of whole components, each with its separator. -/
  | anyComponents
  deriving DecidableEq, Repr

def isSeparator (c : Char) : Bool := c == '/'

/-- Whether a single character meets a token that stands for one. -/
def Token.accepts (c : Char) : Token → Bool
  | literal a => a == c
  | anyChar => true
  | oneOf set => set.any (·.contains c)
  | noneOf set => !set.any (·.contains c)
  | anyText | anyComponents => false

/-- Splits a set from what follows its closing bracket; its first character stands for itself, even
if it is a bracket. -/
def splitSet : List Char → Option (List Char × List Char)
  | [] => none
  | first :: rest =>
    match rest.dropWhile (· != ']') with
    | [] => none
    | _ :: after => some (first :: rest.takeWhile (· != ']'), after)

theorem length_splitSet {cs set after : List Char} (h : splitSet cs = some (set, after)) :
    after.length < cs.length := by
  cases cs with
  | nil => simp [splitSet] at h
  | cons first rest =>
    simp only [splitSet] at h
    split at h
    · simp at h
    · rename_i c tail htail
      have hle := (List.dropWhile_suffix (l := rest) (· != ']')).length_le
      rw [htail] at hle
      simp only [Option.some.injEq, Prod.mk.injEq] at h
      obtain ⟨_, rfl⟩ := h
      simp only [List.length_cons] at hle ⊢
      omega

/-- Adds `**`, of which two in a row count once unless they open the pattern. -/
def pushComponents (seen : List Token) : List Token :=
  match seen with
  | .anyComponents :: _ :: _ => seen
  | _ => .anyComponents :: seen

/-- The tokens of a pattern, the latest first in `seen`; `previous` is the character before. `**`
must be a whole component, and a set must be closed. -/
def tokenize (previous : Option Char) (seen : List Token) : List Char → Option (List Token)
  | [] => some seen.reverse
  | '?' :: cs => tokenize (some '?') (.anyChar :: seen) cs
  | '*' :: '*' :: '*' :: _ => none
  | '*' :: '*' :: cs =>
    if previous.all isSeparator then
      match cs with
      | [] => some (pushComponents seen).reverse
      | c :: cs => if isSeparator c then tokenize (some c) (pushComponents seen) cs else none
    else none
  | '*' :: cs => tokenize (some '*') (.anyText :: seen) cs
  | '[' :: '!' :: cs =>
    match _h : splitSet cs with
    | some (set, after) => tokenize (some ']') (.noneOf (members set) :: seen) after
    | none => none
  | '[' :: cs =>
    match _h : splitSet cs with
    | some (set, after) => tokenize (some ']') (.oneOf (members set) :: seen) after
    | none => none
  | c :: cs => tokenize (some c) (.literal c :: seen) cs
termination_by cs => cs.length
decreasing_by
  all_goals first
    | simp only [List.length_cons]; omega
    | have := length_splitSet ‹splitSet _ = some _›; simp only [List.length_cons]; omega

/-- How a text fares against some tokens. -/
inductive Outcome where
  | matched
  /-- Another choice of what came before may help. -/
  | mismatched
  /-- The text is too short, whatever came before. -/
  | exhausted
  deriving DecidableEq, Repr

/-- Lets a wildcard take more and more of the text, wherever `mayStop` allows it to end; at the end
of the text it may always. -/
def retry (mayStop : Char → Bool) (rest : List Char → Outcome) : List Char → Outcome
  | [] => rest []
  | c :: cs =>
    if mayStop c then
      match rest cs with
      | .mismatched => retry mayStop rest cs
      | outcome => outcome
    else retry mayStop rest cs

/-- A wildcard first takes nothing. -/
def wildcard (mayStop : Char → Bool) (rest : List Char → Outcome) (cs : List Char) : Outcome :=
  match rest cs with
  | .mismatched => retry mayStop rest cs
  | outcome => outcome

def compare : List Token → List Char → Outcome
  | [], [] => .matched
  | [], _ :: _ => .mismatched
  | .anyText :: ts, cs => wildcard (fun _ => true) (compare ts) cs
  | .anyComponents :: ts, cs => wildcard isSeparator (compare ts) cs
  | _ :: _, [] => .exhausted
  | t :: ts, c :: cs => if t.accepts c then compare ts cs else .mismatched

end Pattern

/-- A valid pattern. -/
structure Pattern where
  tokens : List Pattern.Token
  deriving DecidableEq, Repr

namespace Pattern

def ofString? (s : String) : Option Pattern := (tokenize none [] s.toList).map (⟨·⟩)

def «matches» (p : Pattern) (s : String) : Bool := compare p.tokens s.toList == .matched

end Pattern

end NotebookKernel
