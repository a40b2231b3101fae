/-
A run followed through a change of the state. Where each instruction, and each look at the current
cell, comes to the same before and after the change, the changed run goes through the changed stages,
step by step. An instruction may also fail with an error that was agreed upon beforehand: there the
track is lost, and until then it is kept.
-/
import ByteTape.Proofs.Execution.Reachable

namespace ByteTape

/-! ## Changed stages -/

/-- A stage with its state changed. -/
def Config.map (f : State → State) (c : Config) : Config := ⟨c.stack, f c.state⟩

def Progress.map (f : State → State) : Progress → Progress
  | .running c => .running (c.map f)
  | .ended o s => .ended o (f s)

/-- The run has failed with one of these errors. -/
def Progress.FailedWith (Lost : Error → Prop) : Progress → Prop
  | .ended (.failed e) _ => Lost e
  | .running _ | .ended .normal _ => False

@[simp] theorem Progress.map_after (f : State → State) (stack : List Frame) (s : State)
    (o : Outcome) : (Progress.after stack s o).map f = .after stack (f s) o := by
  cases o <;> rfl

@[simp] theorem Progress.state_map (f : State → State) (g : Progress) :
    (g.map f).state = f g.state := by
  cases g <;> rfl

theorem Progress.eq_running_of_map {f : State → State} {g : Progress} {c : Config}
    (h : g.map f = .running c) : ∃ c₁, g = .running c₁ ∧ c = c₁.map f := by
  cases g with
  | running c₁ => cases h; exact ⟨c₁, rfl, rfl⟩
  | ended o s => cases h

theorem Progress.eq_ended_of_map {f : State → State} {g : Progress} {o : Outcome} {s : State}
    (h : g.map f = .ended o s) : ∃ s₁, g = .ended o s₁ ∧ s = f s₁ := by
  cases g with
  | running c => cases h
  | ended o s₁ => cases h; exact ⟨s₁, rfl, rfl⟩

/-- The end `x'` is the end `x` with its state changed, unless `x` is a failure at which the track is
lost. -/
def Tracked (Lost : Error → Prop) (f : State → State) (x x' : Outcome × State) : Prop :=
  x' = (x.1, f x.2) ∨ ∃ e, x.1 = .failed e ∧ Lost e

/-- From states with a property that every instruction keeps, a change of the state can be made
before an instruction or after it, and leaves the value of the current cell, unless something fails
with an error at which the track is lost. -/
structure Tracks (r r' : Rules) (Lost : Error → Prop) (P : State → Prop) (f : State → State) :
    Prop where
  keeps : ∀ (i : Instruction) s, P s → P (i.perform r s).2
  current : ∀ s, P s → (f s).machine.current = s.machine.current ∨
    ∃ e, s.machine.current = .error e ∧ Lost e
  perform : ∀ (i : Instruction) s, P s → Tracked Lost f (i.perform r s) (i.perform r' (f s))

namespace Tracks

variable {r r' : Rules} {Lost : Error → Prop} {P : State → Prop} {f : State → State}
  {c : Config} {done : List Instruction} {g : Progress}

/-! ## One step -/

theorem guard (h : Tracks r r' Lost P f) (body : Program) (past : List Frame) {s : State}
    (hs : P s) : Config.guard body past (f s) = (Config.guard body past s).map f ∨
      (Config.guard body past s).FailedWith Lost := by
  obtain hsame | ⟨e, he, hlost⟩ := h.current s hs
  · refine .inl ?_
    unfold Config.guard
    rw [hsame]
    cases s.machine.current with
    | error e => rfl
    | ok b => by_cases hb : b = 0 <;> simp [hb, Progress.map, Config.map]
  · refine .inr ?_
    unfold Config.guard
    rw [he]
    exact hlost

/-- A changed step leads to the changed next stage, unless the track is lost with it. -/
theorem step (h : Tracks r r' Lost P f) (hc : P c.state) :
    (c.map f).step r' = (c.step r).map f ∨ (c.step r).FailedWith Lost := by
  obtain ⟨stack, s⟩ := c
  match stack with
  | [] => exact .inl rfl
  | ⟨body, .instr i rest⟩ :: outer =>
    rw [Config.map, Config.step_perform, Config.step_perform]
    obtain hsame | ⟨e, he, hlost⟩ := h.perform i s hc
    · rw [hsame, Progress.map_after]
      exact .inl rfl
    · rw [he]
      exact .inr hlost
  | ⟨body, .loop inner rest⟩ :: outer => exact h.guard inner (⟨body, rest⟩ :: outer) hc
  | ⟨none, .nil⟩ :: outer => exact .inl rfl
  | ⟨some body, .nil⟩ :: outer => exact h.guard body outer hc

/-! ## Whole runs -/

/-- Until the track is lost, changed stages are stages of the changed run. -/
theorem reaches (h : Tracks r r' Lost P f) (hg : Reaches r c done g) (hc : P c.state)
    (hlost : ¬ g.FailedWith Lost) : Reaches r' (c.map f) done (g.map f) := by
  induction hg with
  | start => exact .start
  | @step done c₁ c₂ hg hs ih =>
    have hkept : P c₁.state := hg.invariant h.keeps hc
    have hstep : (c₁.map f).step r' = .running (c₂.map f) := by
      have := (h.step hkept).resolve_right (by rw [hs]; exact id)
      rwa [hs] at this
    exact (ih id).step hstep
  | @ended done c₁ o s hg hs ih =>
    have hkept : P c₁.state := hg.invariant h.keeps hc
    have hstep : (c₁.map f).step r' = .ended o (f s) := by
      have := (h.step hkept).resolve_right (by rwa [hs])
      rwa [hs] at this
    exact (ih id).ended hstep

/-- Every stage of the changed run is a changed stage, unless the run comes to lose the track. -/
theorem reaches_of_map (h : Tracks r r' Lost P f) (hg : Reaches r' (c.map f) done g)
    (hc : P c.state) : (∃ g₁, Reaches r c done g₁ ∧ g = g₁.map f) ∨
      ∃ done₁ g₁, Reaches r c done₁ g₁ ∧ g₁.FailedWith Lost := by
  have hstep : ∀ {done c₁}, Reaches r c done (.running c₁) →
      (c₁.map f).step r' = (c₁.step r).map f ∨
        ∃ done₁ g₁, Reaches r c done₁ g₁ ∧ g₁.FailedWith Lost := by
    intro done c₁ hreach
    obtain hsame | hlost := h.step (hreach.invariant h.keeps hc)
    · exact .inl hsame
    · refine .inr ⟨done, c₁.step r, ?_, hlost⟩
      cases hs : c₁.step r with
      | running c₂ =>
        rw [hs] at hlost
        exact hlost.elim
      | ended o s => exact hreach.ended hs
  induction hg with
  | start => exact .inl ⟨_, .start, rfl⟩
  | @step done c₁ c₂ _ hs ih =>
    obtain ⟨g₁, hg₁, hmap⟩ | hlost := ih
    · obtain ⟨d₁, rfl, rfl⟩ := Progress.eq_running_of_map hmap.symm
      obtain hsame | hlost := hstep hg₁
      · obtain ⟨d₂, hd, rfl⟩ := Progress.eq_running_of_map (hsame.symm.trans hs)
        exact .inl ⟨_, hg₁.step hd, rfl⟩
      · exact .inr hlost
    · exact .inr hlost
  | @ended done c₁ o s _ hs ih =>
    obtain ⟨g₁, hg₁, hmap⟩ | hlost := ih
    · obtain ⟨d₁, rfl, rfl⟩ := Progress.eq_running_of_map hmap.symm
      obtain hsame | hlost := hstep hg₁
      · obtain ⟨t, hd, rfl⟩ := Progress.eq_ended_of_map (hsame.symm.trans hs)
        exact .inl ⟨_, hg₁.ended hd, rfl⟩
      · exact .inr hlost
    · exact .inr hlost

/-- With the same fuel, the changed run comes to the changed result, or to none alike, unless the
track is lost. -/
theorem run (h : Tracks r r' Lost P f) (n : Nat) (hc : P c.state) :
    (c.map f).run r' n = (c.run r n).map (fun x => (x.1, f x.2)) ∨
      ∃ e s, c.run r n = some (.failed e, s) ∧ Lost e := by
  induction n generalizing c with
  | zero => exact .inl rfl
  | succ n ih =>
    have hkept := Config.step_invariant (r := r) h.keeps hc
    have hstep := h.step hc
    rw [Config.run, Config.run]
    cases hs : c.step r with
    | running c₁ =>
      rw [hs] at hkept hstep
      rw [hstep.resolve_right id]
      exact ih hkept
    | ended o s =>
      rw [hs] at hstep
      obtain hsame | hlost := hstep
      · rw [hsame]
        exact .inl rfl
      · cases o with
        | normal => exact hlost.elim
        | failed e => exact .inr ⟨e, s, rfl, hlost⟩

end Tracks

/-! ## Executions -/

section

variable {Lost : Error → Prop} {P : State → Prop} {f : State → State} {settings settings' : Settings}
  {p : Program} {s s' : State} {o : Outcome}

/-- Where the settings wrap the pointer round as many cells before the change as after it, the changed
execution comes to the changed result, or to none alike, unless the track is lost. -/
theorem execute_tracked (h : ∀ modulus, Tracks ⟨modulus, settings.onEof⟩ ⟨modulus, settings'.onEof⟩
      Lost P f)
    (hmodulus : settings'.wrap.modulus (f s).machine.cells.size =
      settings.wrap.modulus s.machine.cells.size) (hs : P s) (fuel : Nat) :
    execute fuel settings' p (f s) = (execute fuel settings p s).map (fun x => (x.1, f x.2)) ∨
      ∃ e s', execute fuel settings p s = some (.failed e, s') ∧ Lost e := by
  unfold execute
  rw [hmodulus]
  cases settings.wrap.modulus s.machine.cells.size with
  | error e => exact .inl rfl
  | ok modulus => exact (h modulus).run (c := .start p s) fuel hs

theorem Ends.tracked (h : Ends settings p s o s')
    (htracks : ∀ modulus, Tracks ⟨modulus, settings.onEof⟩ ⟨modulus, settings'.onEof⟩ Lost P f)
    (hmodulus : settings'.wrap.modulus (f s).machine.cells.size =
      settings.wrap.modulus s.machine.cells.size)
    (hs : P s) (ho : ∀ e, o = .failed e → ¬ Lost e) : Ends settings' p (f s) o (f s') := by
  obtain ⟨fuel, hx⟩ := ends_iff.1 h
  obtain hsame | ⟨e, t, hx', hlost⟩ := execute_tracked htracks hmodulus hs fuel
  · rw [hx] at hsame
    exact ends_iff.2 ⟨fuel, hsame⟩
  · rw [hx] at hx'
    cases hx'
    exact absurd hlost (ho e rfl)

end

end ByteTape
