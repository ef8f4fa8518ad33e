import NotebookKernel.Signals.Diagnostic
import NotebookKernel.Signals.Signal

namespace NotebookKernel

/-- What is asked for a signal. -/
inductive Disposition where
  /-- Write a diagnostic and exit with status 1. -/
  | abort
  /-- Exit with status 0. -/
  | terminate
  | ignore
  deriving DecidableEq, Repr

/-- What runs when a signal arrives. -/
inductive Handler where
  | default
  | ignored
  | diagnostic
  | exit
  /-- Runs the handler that it has displaced, and then exits. -/
  | dispatcher
  deriving DecidableEq, Repr

/-- How one signal is handled. -/
structure Handling where
  handler : Handler
  /-- What the dispatcher has displaced, once it was installed. -/
  displaced : Option Handler
  deriving DecidableEq, Repr

namespace Handling

def initial : Handling := ⟨.default, none⟩

/-- The dispatcher is installed only once and stays away when it was displaced itself. Faults have no
dispatcher. -/
def apply (isFault : Bool) (h : Handling) : Disposition → Handling
  | .abort => { h with handler := .diagnostic }
  | .ignore => { h with handler := .ignored }
  | .terminate =>
    if isFault then { h with handler := .exit }
    else match h.displaced with
      | none => ⟨.dispatcher, some h.handler⟩
      | some _ => h

end Handling

/-- What a signal does to a process. -/
inductive Fate where
  | survived
  | exited (status : Nat)
  | killed (signal : Nat)
  | stopped
  deriving DecidableEq, Repr

/-- What a process does in the end, and what it has written to its error stream. -/
structure Ending where
  fate : Fate
  written : List UInt8
  deriving DecidableEq

namespace Ending

def quiet (fate : Fate) : Ending := ⟨fate, []⟩

/-- Stops on a terminal have no effect on a process that no shell controls. -/
def byDefault (s : Signal) : Ending :=
  match s with
  | .chld | .cont | .urg | .winch | .tstp | .ttin | .ttou => quiet .survived
  | .stop => quiet .stopped
  | s => quiet (.killed s.number)

def diagnostic (s : Signal) : Ending :=
  ⟨.exited 1, ((Diagnostic.line? (.ofNat s.number)).map Buffer.bytes).getD []⟩

end Ending

def Handling.raise (h : Handling) (s : Signal) : Ending :=
  match h.handler with
  | .default => .byDefault s
  | .ignored => .quiet .survived
  | .diagnostic => .diagnostic s
  | .exit => .quiet (.exited 0)
  | .dispatcher =>
    if h.displaced = some .diagnostic then .diagnostic s else .quiet (.exited 0)

inductive Applied where
  | installed
  | uncatchable
  deriving DecidableEq, Repr

/-- How each signal is handled. -/
abbrev Handlings := Signal → Handling

namespace Handlings

def initial : Handlings := fun _ => .initial

def applyOne (h : Handlings) (s : Signal) (d : Disposition) : Applied × Handlings :=
  if s.isUncatchable then (.uncatchable, h)
  else (.installed, fun t => if t = s then (h s).apply s.isFault d else h t)

theorem applyOne_of_ne (h : Handlings) {s t : Signal} (ht : t ≠ s) (d : Disposition) :
    (h.applyOne s d).2 t = h t := by
  by_cases hs : s.isUncatchable = true
  · rw [applyOne, if_pos hs]
  · rw [applyOne, if_neg hs]
    exact if_neg ht

/-- The outcome of each entry of a table, and the handling that results. -/
def apply (h : Handlings) : List (Signal × Disposition) → List (Signal × Applied) × Handlings
  | [] => ([], h)
  | (s, d) :: table =>
    let (outcome, h) := h.applyOne s d
    let (outcomes, h) := h.apply table
    ((s, outcome) :: outcomes, h)

def raise (h : Handlings) (s : Signal) : Ending := (h s).raise s

/-- The table of a kernel. -/
def standard : List (Signal × Disposition) :=
  [(.segv, .abort), (.kill, .terminate), (.int, .terminate)]

end Handlings

end NotebookKernel
