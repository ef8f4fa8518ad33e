import NotebookKernel.Redirection.Guard

namespace NotebookKernel

open Json

/-- What a run asked and published, its result, and the answers that were not used. -/
structure Rehearsed (α : Type) where
  result : α
  asked : List (String × Bool)
  published : List (String × Value)
  left : List (Except Failure String)

def noReplyLeft : Failure := .disconnected "no reply left"

def Execution.rehearse {α : Type} : Execution α → List (Except Failure String) → Rehearsed α
  | .done result, answers => ⟨result, [], [], answers⟩
  | .publish msgType content next, answers =>
    let r := next.rehearse answers
    { r with published := (msgType, content) :: r.published }
  | .ask prompt password next, answers =>
    let r := (next (answers.head?.getD (.error noReplyLeft))).rehearse answers.tail
    { r with asked := (prompt, password) :: r.asked }

/-- Guards that are kept under names, and objects that are remembered by where they were found. -/
structure Rehearsal where
  bindings : Redirection.Bindings
  inputGuards : List (String × Redirection.Guard)
  outputGuards : List (String × Redirection.Guard)
  found : List (EntryPoint × Redirection.Object)
  answers : List (Except Failure String)

namespace Rehearsal

open Redirection

def initial (answers : List (Except Failure String)) : Rehearsal := ⟨.initial, [], [], [], answers⟩

def dropNamed (guards : List (String × Guard)) (name : String) (b : Bindings) : Bindings :=
  match guards.lookup name with
  | some g => b.drop g
  | none => b

def without (guards : List (String × Guard)) (name : String) : List (String × Guard) :=
  guards.filter (·.1 != name)

/-- A guard that had the name is dropped when the new one is in place. -/
def redirectInput (r : Rehearsal) (name : String) (enabled : Bool) :
    Except Failure Unit × Rehearsal :=
  match (installInput enabled).run.run r.bindings with
  | (.error failure, b) => (.error failure, { r with bindings := b })
  | (.ok g, b) => (.ok (), { r with
      bindings := dropNamed r.inputGuards name b
      inputGuards := (name, g) :: without r.inputGuards name })

def redirectOutput (r : Rehearsal) (name : String) : Rehearsal :=
  let (g, b) := installOutput.run r.bindings
  { r with
    bindings := dropNamed r.outputGuards name b
    outputGuards := (name, g) :: without r.outputGuards name }

/-- Drops the guards of that name, if there are any. -/
def drop (r : Rehearsal) (name : String) : Bool × Rehearsal :=
  ((r.inputGuards.lookup name).isSome || (r.outputGuards.lookup name).isSome, { r with
    bindings := dropNamed r.outputGuards name (dropNamed r.inputGuards name r.bindings)
    inputGuards := without r.inputGuards name
    outputGuards := without r.outputGuards name })

def replace (r : Rehearsal) (entry : EntryPoint) : Rehearsal :=
  { r with bindings := r.bindings.place entry .user }

def remember (r : Rehearsal) (entry : EntryPoint) : Rehearsal :=
  { r with found := (entry, r.bindings.holds entry) :: r.found }

/-- Does nothing when nothing is remembered. -/
def putBack (r : Rehearsal) (source target : EntryPoint) : Rehearsal :=
  match r.found.lookup source with
  | some o => { r with bindings := r.bindings.put target o }
  | none => r

/-- Calls the hook that is remembered or that the entry point holds. -/
def call (r : Rehearsal) (entry : EntryPoint) (source : Option EntryPoint) (args : List Argument)
    (named : List (String × Argument)) :
    Option (Rehearsed (Except Raised String)) × Rehearsal :=
  let object := (source.bind fun e => r.found.lookup e).getD (r.bindings.holds entry)
  match object.kind with
  | .hook h =>
    let rehearsed := (h.call args named).rehearse r.answers
    (some rehearsed, { r with answers := rehearsed.left })
  | _ => (none, r)

def stream (r : Rehearsal) (entry : EntryPoint) (method : String) (args : List Argument) :
    Option (Rehearsed (Except Raised Value)) :=
  match (r.bindings.holds entry).kind with
  | .stream s => some ((s.call method args).rehearse r.answers)
  | _ => none

end Rehearsal

end NotebookKernel
