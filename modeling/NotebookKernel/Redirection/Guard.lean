import NotebookKernel.Redirection.Hook
import NotebookKernel.Redirection.Stream

namespace NotebookKernel

/-- The places through which user code reads and writes. -/
inductive EntryPoint where
  | input
  | getpass
  | stdout
  | stderr
  deriving DecidableEq, Repr

namespace EntryPoint

def all : List EntryPoint := [input, getpass, stdout, stderr]

def name : EntryPoint → String
  | input => "input"
  | getpass => "getpass"
  | stdout => "stdout"
  | stderr => "stderr"

end EntryPoint

namespace Redirection

inductive Kind where
  /-- What an entry point holds at first. -/
  | builtin (entry : EntryPoint)
  | user
  | hook (hook : Hook)
  | stream (stream : Stream)
  deriving DecidableEq, Repr

/-- No two objects have the same number. -/
structure Object where
  kind : Kind
  number : Nat
  deriving DecidableEq, Repr

def Object.isHook (o : Object) : Bool := o.kind matches .hook _

/-- What each entry point holds, and how many objects were made. -/
structure Bindings where
  holds : EntryPoint → Object
  made : Nat

/-- The objects that were displaced, in the order in which they are put back. -/
structure Guard where
  displaced : List (EntryPoint × Object)
  deriving DecidableEq, Repr

namespace Bindings

def initial : Bindings where
  holds
    | .input => ⟨.builtin .input, 0⟩
    | .getpass => ⟨.builtin .getpass, 1⟩
    | .stdout => ⟨.builtin .stdout, 2⟩
    | .stderr => ⟨.builtin .stderr, 3⟩
  made := 4

def put (b : Bindings) (entry : EntryPoint) (o : Object) : Bindings :=
  { b with holds := fun e => if e = entry then o else b.holds e }

@[simp] theorem holds_put_self (b : Bindings) (entry : EntryPoint) (o : Object) :
    (b.put entry o).holds entry = o :=
  if_pos rfl

theorem holds_put_of_ne (b : Bindings) {entry other : EntryPoint} (h : other ≠ entry)
    (o : Object) : (b.put entry o).holds other = b.holds other :=
  if_neg h

/-- Puts a new object into an entry point. -/
def place (b : Bindings) (entry : EntryPoint) (kind : Kind) : Bindings :=
  { b.put entry ⟨kind, b.made⟩ with made := b.made + 1 }

/-- Displaces what the entry points hold by new objects. -/
def redirect (b : Bindings) (targets : List (EntryPoint × Kind)) : Guard × Bindings :=
  (⟨targets.map fun t => (t.1, b.holds t.1)⟩, targets.foldl (fun b t => b.place t.1 t.2) b)

/-- Refused while either entry point for input holds a hook. -/
def redirectInput (b : Bindings) (enabled : Bool) : Except Failure (Guard × Bindings) :=
  if (b.holds .input).isHook || (b.holds .getpass).isHook then .error .alreadyRedirected
  else .ok (b.redirect [(.input, .hook ⟨enabled, false⟩), (.getpass, .hook ⟨enabled, true⟩)])

/-- Puts back what a guard displaced, whatever the entry points hold by now. -/
def drop (b : Bindings) (g : Guard) : Bindings :=
  g.displaced.foldl (fun b d => b.put d.1 d.2) b

/-- How user code sees what an entry point holds. -/
def describe (b : Bindings) (entry : EntryPoint) : String :=
  match (b.holds entry).kind with
  | .builtin e => if e = entry then "original" else "user"
  | .user => "user"
  | .hook h => h.description
  | .stream s => "stream " ++ s.label

end Bindings

def held (entry : EntryPoint) : StateM Bindings Object := return (← get).holds entry

def place (entry : EntryPoint) (kind : Kind) : StateM Bindings Unit := modify (·.place entry kind)

/-- Both entry points are read before either is assigned to. What was assigned stays where this fails. -/
def installInput (enabled : Bool) : ExceptT Failure (StateM Bindings) Guard := do
  let savedInput ← held .input
  let savedGetpass ← held .getpass
  if savedInput.isHook || savedGetpass.isHook then
    throw .alreadyRedirected
  place .input (.hook ⟨enabled, false⟩)
  place .getpass (.hook ⟨enabled, true⟩)
  return ⟨[(.input, savedInput), (.getpass, savedGetpass)]⟩

theorem installInput_run (enabled : Bool) (b : Bindings) :
    (installInput enabled).run.run b = match b.redirectInput enabled with
      | .ok (g, b') => (.ok g, b')
      | .error failure => (.error failure, b) := by
  have hread : (installInput enabled).run.run b = ((do
      if (b.holds .input).isHook || (b.holds .getpass).isHook then
        throw .alreadyRedirected
      place .input (.hook ⟨enabled, false⟩)
      place .getpass (.hook ⟨enabled, true⟩)
      return ⟨[(.input, b.holds .input), (.getpass, b.holds .getpass)]⟩ :
        ExceptT Failure (StateM Bindings) Guard).run.run b) := rfl
  rw [hread, Bindings.redirectInput]
  split <;> rfl

def installOutput : StateM Bindings Guard := do
  let savedStdout ← held .stdout
  let savedStderr ← held .stderr
  place .stdout (.stream .stdout)
  place .stderr (.stream .stderr)
  return ⟨[(.stdout, savedStdout), (.stderr, savedStderr)]⟩

theorem installOutput_run (b : Bindings) :
    installOutput.run b =
      b.redirect [(.stdout, .stream .stdout), (.stderr, .stream .stderr)] :=
  rfl

end Redirection

end NotebookKernel
