import Mathlib.Data.List.Induction
import NotebookKernel.Redirection.Guard

namespace NotebookKernel

namespace Redirection

theorem Bindings.holds_drop_saved (b : Bindings) (saved : EntryPoint → Object)
    (entries : List EntryPoint) (entry : EntryPoint) :
    (b.drop ⟨entries.map fun e => (e, saved e)⟩).holds entry =
      if entry ∈ entries then saved entry else b.holds entry := by
  induction entries generalizing b with
  | nil => rfl
  | cons e rest ih =>
    have hdrop : b.drop ⟨(e :: rest).map fun e => (e, saved e)⟩ =
        (b.put e (saved e)).drop ⟨rest.map fun e => (e, saved e)⟩ := rfl
    rw [hdrop, ih]
    by_cases hrest : entry ∈ rest
    · rw [if_pos hrest, if_pos (List.mem_cons_of_mem e hrest)]
    · rw [if_neg hrest]
      by_cases he : entry = e
      · subst he
        rw [b.holds_put_self, if_pos List.mem_cons_self]
      · rw [b.holds_put_of_ne he, if_neg (List.not_mem_cons_of_ne_of_not_mem he hrest)]

/-- What an installation redirects. -/
inductive Target where
  | input (enabled : Bool)
  | output
  deriving DecidableEq, Repr

namespace Target

def entries : Target → List EntryPoint
  | input _ => [.input, .getpass]
  | output => [.stdout, .stderr]

/-- The result, and what the entry points hold then, also where it fails. -/
def install (t : Target) (b : Bindings) : Except Failure Guard × Bindings :=
  match t with
  | input enabled => (installInput enabled).run.run b
  | output => let (g, b') := installOutput.run b; (.ok g, b')

/-- Another redirection of input is in place, or what it placed has been put back by user code. -/
def Refused (t : Target) (b : Bindings) : Prop :=
  (∃ enabled, t = input enabled) ∧ ((b.holds .input).isHook ∨ (b.holds .getpass).isHook)

def guard (t : Target) (b : Bindings) : Guard := ⟨t.entries.map fun e => (e, b.holds e)⟩

/-- The only case analysis of an installation. -/
theorem install_cases (t : Target) (b : Bindings) :
    (¬ t.Refused b ∧ ∃ b', t.install b = (.ok (t.guard b), b')) ∨
      (t.Refused b ∧ t.install b = (.error .alreadyRedirected, b)) := by
  cases t with
  | output =>
    have haccepted : ¬ Refused output b := fun h => nomatch h.1.choose_spec
    have hinstall : install output b = (.ok _, _) :=
      congrArg (fun r : Guard × Bindings => (Except.ok r.1, r.2)) (installOutput_run b)
    exact .inl ⟨haccepted, _, hinstall⟩
  | input enabled =>
    have hrun := installInput_run enabled b
    rw [Bindings.redirectInput] at hrun
    by_cases hhook : (b.holds .input).isHook || (b.holds .getpass).isHook
    · rw [if_pos hhook] at hrun
      exact .inr ⟨⟨⟨enabled, rfl⟩, Bool.or_eq_true_iff.1 hhook⟩, hrun⟩
    · rw [if_neg hhook] at hrun
      exact .inl ⟨fun h => hhook (Bool.or_eq_true_iff.2 h.2), _, hrun⟩

end Target

/-- The guards that are live, the newest first. -/
structure Stage where
  bindings : Bindings
  live : List Guard

inductive Step where
  | install (target : Target)
  /-- User code can put anything anywhere, hooks and streams that it found elsewhere included. -/
  | rebind (entry : EntryPoint) (o : Object)
  | drop
  deriving DecidableEq, Repr

namespace Stage

/-- Without a live guard nothing can be dropped. -/
def step (s : Stage) : Step → Stage
  | .install t => match t.install s.bindings with
    | (.ok g, b) => ⟨b, g :: s.live⟩
    | (.error _, b) => ⟨b, s.live⟩
  | .rebind entry o => ⟨s.bindings.put entry o, s.live⟩
  | .drop => match s.live with
    | [] => s
    | g :: rest => ⟨s.bindings.drop g, rest⟩

def run (s : Stage) (steps : List Step) : Stage := steps.foldl step s

@[simp] theorem run_nil (s : Stage) : s.run [] = s := rfl

theorem run_concat (s : Stage) (steps : List Step) (a : Step) :
    s.run (steps ++ [a]) = (s.run steps).step a := by
  rw [run, List.foldl_append]
  rfl

theorem step_drop {s : Stage} {g : Guard} {rest : List Guard} (h : s.live = g :: rest) :
    s.step .drop = ⟨s.bindings.drop g, rest⟩ := by
  simp only [step, h]

theorem step_refused {s : Stage} {t : Target} (h : t.Refused s.bindings) :
    s.step (.install t) = s := by
  obtain ⟨haccepted, -⟩ | ⟨-, hrefused⟩ := t.install_cases s.bindings
  · exact absurd h haccepted
  · simp only [step, hrefused]

/-- What one step can do to the live guards. -/
theorem step_live (s : Stage) (a : Step) :
    (s.step a).live = s.live ∨ (∃ g, s.live = g :: (s.step a).live) ∨
      ∃ t, a = .install t ∧ ¬ t.Refused s.bindings ∧
        (s.step a).live = t.guard s.bindings :: s.live := by
  cases a with
  | install t =>
    obtain ⟨haccepted, b', hinstall⟩ | ⟨hrefused, -⟩ := t.install_cases s.bindings
    · refine .inr (.inr ⟨t, rfl, haccepted, ?_⟩)
      simp only [step, hinstall]
    · exact .inl (congrArg live (step_refused hrefused))
  | rebind entry o => exact .inl rfl
  | drop =>
    cases h : s.live with
    | nil =>
      left
      simp only [step, h]
    | cons g rest =>
      right; left
      exact ⟨g, by rw [step_drop h]⟩

/-- After the steps `before`, the guard of `target` was installed over the guards `rest`. It has been
live through the steps `inner` that were done since. -/
structure Open (s : Stage) (before : List Step) (target : Target) (inner : List Step)
    (rest : List Guard) : Prop where
  accepted : ¬ target.Refused (s.run before).bindings
  below : (s.run before).live = rest
  kept : ∀ part, part <+: inner → ∃ newer,
    (s.run (before ++ .install target :: part)).live =
      newer ++ target.guard (s.run before).bindings :: rest

theorem Open.concat {s : Stage} {before inner : List Step} {target : Target} {rest : List Guard}
    (h : s.Open before target inner rest) {a : Step} {newer : List Guard}
    (hlive : (s.run (before ++ .install target :: (inner ++ [a]))).live =
      newer ++ target.guard (s.run before).bindings :: rest) :
    s.Open before target (inner ++ [a]) rest where
  accepted := h.accepted
  below := h.below
  kept := by
    intro part hpart
    obtain rfl | hinner := List.prefix_concat_iff.1 hpart
    · exact ⟨newer, hlive⟩
    · exact h.kept part hinner

/-- Every live guard goes back to the step that installed it. The induction is on the steps from the
end, and over all guards of the stack: a guard that was covered may be on top after a drop. -/
theorem open_of_live {s : Stage} (hs : s.live = []) (steps : List Step) (newer : List Guard)
    (g : Guard) (rest : List Guard) (h : (s.run steps).live = newer ++ g :: rest) :
    ∃ before target inner, steps = before ++ .install target :: inner ∧
      g = target.guard (s.run before).bindings ∧ s.Open before target inner rest := by
  induction steps using List.reverseRecOn generalizing newer with
  | nil =>
    rw [run_nil, hs] at h
    exact absurd h.symm (List.append_ne_nil_of_right_ne_nil newer (List.cons_ne_nil g rest))
  | append_singleton steps a ih =>
    have hafter := h
    rw [run_concat] at h
    have hearlier : ∀ newer', (s.run steps).live = newer' ++ g :: rest →
        ∃ before target inner, steps ++ [a] = before ++ .install target :: inner ∧
          g = target.guard (s.run before).bindings ∧ s.Open before target inner rest := by
      intro newer' hlive
      obtain ⟨before, target, inner, rfl, rfl, hopen⟩ := ih newer' hlive
      have hsteps : before ++ .install target :: inner ++ [a] =
          before ++ .install target :: (inner ++ [a]) := List.append_assoc _ _ _
      rw [hsteps] at hafter
      exact ⟨before, target, inner ++ [a], hsteps, rfl, hopen.concat hafter⟩
    obtain hsame | ⟨top, hdropped⟩ | ⟨t, rfl, haccepted, hinstalled⟩ := (s.run steps).step_live a
    · exact hearlier newer (hsame.symm.trans h)
    · apply hearlier (top :: newer)
      rw [hdropped, h]
      rfl
    · rw [hinstalled] at h
      cases newer with
      | nil =>
        obtain ⟨rfl, hrest⟩ := List.cons.inj h
        refine ⟨steps, t, [], rfl, rfl, haccepted, hrest, ?_⟩
        intro part hpart
        rw [List.prefix_nil.1 hpart]
        exact ⟨[], hafter⟩
      | cons n newer =>
        exact hearlier newer (List.cons.inj h).2

/-- For any steps, of which only the installations that are accepted make a guard and every drop ends
the guard that was installed last: the guard that a drop ends was made by an installation that it
outlived until then, and in the entry points of that installation the drop leaves what they held just
before it. The other two are left alone. An installation that fails changes nothing; it fails because a
hook is in place. -/
theorem nested_guards_restore (b : Bindings) (steps : List Step) :
    let start : Stage := ⟨b, []⟩
    let s := start.run steps
    (∀ g rest, s.live = g :: rest →
      ∃ before target inner, steps = before ++ .install target :: inner ∧
        (target.install (start.run before).bindings).1 = .ok g ∧
        start.Open before target inner rest ∧
        (s.step .drop).live = rest ∧
        ∀ entry, (s.step .drop).bindings.holds entry =
          if entry ∈ target.entries then (start.run before).bindings.holds entry
          else s.bindings.holds entry) ∧
    ∀ target failure, (target.install s.bindings).1 = .error failure →
      failure = .alreadyRedirected ∧ target.Refused s.bindings ∧
      (target.install s.bindings).2.holds = s.bindings.holds ∧ s.step (.install target) = s := by
  intro start s
  constructor
  · intro g rest hlive
    obtain ⟨before, target, inner, hsteps, rfl, hopen⟩ := open_of_live rfl steps [] g rest hlive
    refine ⟨before, target, inner, hsteps, ?_, hopen, ?_, ?_⟩
    · obtain ⟨-, b', hinstall⟩ | ⟨hrefused, -⟩ :=
        target.install_cases (start.run before).bindings
      · rw [hinstall]
      · exact absurd hrefused hopen.accepted
    · rw [step_drop hlive]
    · intro entry
      rw [step_drop hlive]
      exact s.bindings.holds_drop_saved _ target.entries entry
  · intro target failure hfailed
    obtain ⟨-, b', hinstall⟩ | ⟨hrefused, hinstall⟩ := target.install_cases s.bindings
    · rw [hinstall] at hfailed
      exact nomatch hfailed
    · rw [hinstall] at hfailed ⊢
      exact ⟨(Except.error.inj hfailed).symm, hrefused, rfl, step_refused hrefused⟩

/-- User code takes one of the two hooks away; the other one still keeps a second redirection out. -/
theorem nested_guards_restore_rebound :
    let start : Stage := ⟨.initial, []⟩
    let steps : List Step := [.install .output, .install (.input true), .install (.input false),
      .rebind .input ⟨.user, 9⟩, .rebind .stderr ⟨.user, 9⟩, .install .output, .drop]
    let s := start.run steps
    (∃ before target inner, steps = before ++ .install target :: inner ∧
      start.Open before target inner s.live.tail ∧
      ∀ entry ∈ target.entries,
        (s.step .drop).bindings.holds entry = (start.run before).bindings.holds entry) ∧
    s.bindings.holds .input = ⟨.user, 9⟩ ∧
    (s.step .drop).bindings.holds .input = start.bindings.holds .input ∧
    s.step (.install (.input false)) = s := by
  intro start steps s
  obtain ⟨hdrop, hfailed⟩ := nested_guards_restore .initial steps
  obtain ⟨before, target, inner, hsteps, -, hopen, -, hholds⟩ := hdrop _ _ rfl
  have hrestored : ∀ entry ∈ target.entries,
      (s.step .drop).bindings.holds entry = (start.run before).bindings.holds entry := by
    intro entry hentry
    exact (hholds entry).trans (if_pos hentry)
  have hrefused := hfailed (.input false) .alreadyRedirected rfl
  exact ⟨⟨before, target, inner, hsteps, hopen, hrestored⟩, rfl, rfl, hrefused.2.2.2⟩

end Stage

end Redirection

end NotebookKernel
