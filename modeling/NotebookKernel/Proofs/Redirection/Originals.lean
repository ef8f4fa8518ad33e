import NotebookKernel.Proofs.Redirection.Nesting

namespace NotebookKernel

namespace Redirection

/-- One of the entry points for input holds a hook. -/
def Bindings.Hooked (b : Bindings) : Prop :=
  (b.holds .input).isHook ∨ (b.holds .getpass).isHook

/-- What was displaced from the two entry points for input, none of it a hook. -/
def Guard.HoldsOriginals (g : Guard) : Prop :=
  ∃ input getpass : Object, g = ⟨[(.input, input), (.getpass, getpass)]⟩ ∧
    input.isHook = false ∧ getpass.isHook = false

/-- What can happen while redirections of input come and go. Any live guard can be dropped, by its position. -/
inductive Move where
  | install (enabled : Bool)
  /-- User code can put anything anywhere, hooks that it has kept included. -/
  | rebind (entry : EntryPoint) (o : Object)
  | drop (position : Nat)
  deriving DecidableEq, Repr

theorem hooked_iff_refused (b : Bindings) (enabled : Bool) :
    (Target.input enabled).Refused b ↔ b.Hooked :=
  ⟨And.right, fun h => ⟨⟨enabled, rfl⟩, h⟩⟩

/-- An installation is refused just if a hook is in place. -/
theorem installInput_cases (b : Bindings) (enabled : Bool) :
    (¬ b.Hooked ∧ ∃ g b', (installInput enabled).run.run b = (.ok g, b') ∧ g.HoldsOriginals) ∨
      (b.Hooked ∧ (installInput enabled).run.run b = (.error .alreadyRedirected, b)) := by
  rw [← hooked_iff_refused b enabled]
  obtain ⟨haccepted, b', hinstall⟩ | hrefused := (Target.input enabled).install_cases b
  · refine .inl ⟨haccepted, _, b', hinstall, _, _, rfl, ?_⟩
    rw [hooked_iff_refused, Bindings.Hooked, not_or] at haccepted
    exact ⟨Bool.eq_false_iff.2 haccepted.1, Bool.eq_false_iff.2 haccepted.2⟩
  · exact .inr hrefused

theorem Guard.HoldsOriginals.not_hooked {g : Guard} (h : g.HoldsOriginals) (b : Bindings) :
    ¬ (b.drop g).Hooked := by
  obtain ⟨input, getpass, rfl, hinput, hgetpass⟩ := h
  have hholds : ((b.drop ⟨[(.input, input), (.getpass, getpass)]⟩).holds .input = input) ∧
      (b.drop ⟨[(.input, input), (.getpass, getpass)]⟩).holds .getpass = getpass := ⟨rfl, rfl⟩
  rw [Bindings.Hooked, hholds.1, hholds.2, hinput, hgetpass]
  simp

namespace Stage

/-- Without a live guard at the position nothing is dropped. -/
def move (s : Stage) : Move → Stage
  | .install enabled => s.step (.install (.input enabled))
  | .rebind entry o => s.step (.rebind entry o)
  | .drop position => match s.live[position]? with
    | some g => ⟨s.bindings.drop g, s.live.eraseIdx position⟩
    | none => s

def moves (s : Stage) (ms : List Move) : Stage := ms.foldl move s

theorem move_drop {s : Stage} {position : Nat} {g : Guard} (h : s.live[position]? = some g) :
    s.move (.drop position) = ⟨s.bindings.drop g, s.live.eraseIdx position⟩ := by
  simp only [move, h]

/-- Only an installation makes a guard, and it is refused where it would displace a hook. -/
theorem move_keeps {s : Stage} (h : ∀ g ∈ s.live, g.HoldsOriginals) (m : Move) :
    ∀ g ∈ (s.move m).live, g.HoldsOriginals := by
  cases m with
  | install enabled =>
    have hstep : s.move (.install enabled) = match (installInput enabled).run.run s.bindings with
        | (.ok g, b) => ⟨b, g :: s.live⟩
        | (.error _, b) => ⟨b, s.live⟩ := rfl
    obtain ⟨-, g, b', hinstall, horiginals⟩ | ⟨-, hinstall⟩ := installInput_cases s.bindings enabled
    · rw [hstep, hinstall]
      exact List.forall_mem_cons.2 ⟨horiginals, h⟩
    · rw [hstep, hinstall]
      exact h
  | rebind entry o => exact h
  | drop position =>
    cases hlive : s.live[position]? with
    | none => simpa only [move, hlive] using h
    | some g =>
      rw [move_drop hlive]
      exact fun g' hg' => h g' (List.mem_of_mem_eraseIdx hg')

theorem moves_keep {s : Stage} (h : ∀ g ∈ s.live, g.HoldsOriginals) (ms : List Move) :
    ∀ g ∈ (s.moves ms).live, g.HoldsOriginals := by
  induction ms generalizing s with
  | nil => exact h
  | cons m ms ih => exact ih (move_keeps h m)

/-- For any installations, drops of live guards in any order and assignments by user code: no live guard has
displaced a hook; after any of them is dropped no hook is in place, so that the next installation is
accepted; and an installation is refused just if a hook is in place. -/
theorem drops_leave_no_hook (b : Bindings) (ms : List Move) :
    let s := (⟨b, []⟩ : Stage).moves ms
    (∀ g ∈ s.live, ∃ input getpass : Object, g = ⟨[(.input, input), (.getpass, getpass)]⟩ ∧
      input.isHook = false ∧ getpass.isHook = false) ∧
    (∀ position g, s.live[position]? = some g →
      (s.move (.drop position)).live = s.live.eraseIdx position ∧
      ((s.move (.drop position)).bindings.holds .input).isHook = false ∧
      ((s.move (.drop position)).bindings.holds .getpass).isHook = false ∧
      ∀ enabled, ∃ g' b',
        (installInput enabled).run.run (s.move (.drop position)).bindings = (.ok g', b')) ∧
    ∀ enabled,
      (((installInput enabled).run.run s.bindings).1 = .error .alreadyRedirected ↔
        (s.bindings.holds .input).isHook ∨ (s.bindings.holds .getpass).isHook) ∧
      ((∃ g, ((installInput enabled).run.run s.bindings).1 = .ok g) ↔
        ¬ ((s.bindings.holds .input).isHook ∨ (s.bindings.holds .getpass).isHook)) := by
  intro s
  have horiginals : ∀ g ∈ s.live, g.HoldsOriginals := moves_keep (List.forall_mem_nil _) ms
  refine ⟨horiginals, ?_, ?_⟩
  · intro position g hlive
    rw [move_drop hlive]
    have hclear := (horiginals g (List.mem_of_getElem? hlive)).not_hooked s.bindings
    obtain ⟨hinput, hgetpass⟩ := not_or.1 hclear
    refine ⟨rfl, Bool.eq_false_iff.2 hinput, Bool.eq_false_iff.2 hgetpass, ?_⟩
    intro enabled
    obtain ⟨-, g', b', hinstall, -⟩ | ⟨hhooked, -⟩ :=
      installInput_cases (s.bindings.drop g) enabled
    · exact ⟨g', b', hinstall⟩
    · exact absurd hhooked hclear
  · intro enabled
    obtain ⟨hclear, g, b', hinstall, -⟩ | ⟨hhooked, hinstall⟩ :=
      installInput_cases s.bindings enabled
    · rw [hinstall]
      exact ⟨⟨nofun, fun h => absurd h hclear⟩, ⟨fun _ => hclear, fun _ => ⟨g, rfl⟩⟩⟩
    · rw [hinstall]
      exact ⟨⟨fun _ => hhooked, fun _ => rfl⟩, ⟨nofun, fun h => absurd hhooked h⟩⟩

/-- User code takes the hooks away, so that a second guard is live, and then puts a hook back that it has kept.
The older guard is dropped first. -/
theorem drops_leave_no_hook_kept :
    let kept : Object := ⟨.hook ⟨true, false⟩, 4⟩
    let s := (⟨.initial, []⟩ : Stage).moves [.install true, .rebind .input ⟨.user, 9⟩,
      .rebind .getpass ⟨.user, 10⟩, .install false, .rebind .input kept]
    let s' := s.move (.drop 1)
    s.live.length = 2 ∧ s.bindings.holds .input = kept ∧
    ((installInput true).run.run s.bindings).1 = .error .alreadyRedirected ∧
    (s'.bindings.holds .input).isHook = false ∧ (s'.bindings.holds .getpass).isHook = false ∧
    (∃ g' b', (installInput true).run.run s'.bindings = (.ok g', b')) ∧
    ∀ g ∈ s'.live, ∃ input getpass : Object, g = ⟨[(.input, input), (.getpass, getpass)]⟩ ∧
      input.isHook = false ∧ getpass.isHook = false := by
  intro kept s s'
  obtain ⟨-, hdrop, hinstall⟩ := drops_leave_no_hook .initial [.install true,
    .rebind .input ⟨.user, 9⟩, .rebind .getpass ⟨.user, 10⟩, .install false, .rebind .input kept]
  obtain ⟨-, hinput, hgetpass, haccepted⟩ := hdrop 1 _ rfl
  obtain ⟨hlive, -⟩ := drops_leave_no_hook .initial [.install true, .rebind .input ⟨.user, 9⟩,
    .rebind .getpass ⟨.user, 10⟩, .install false, .rebind .input kept, .drop 1]
  exact ⟨rfl, rfl, (hinstall true).1.2 (.inl rfl), hinput, hgetpass, haccepted true, hlive⟩

end Stage

end Redirection

end NotebookKernel
