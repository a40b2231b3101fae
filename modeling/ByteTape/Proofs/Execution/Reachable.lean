/-
The stages of a run. What a step can do is said once, in `step_running` and `step_ended`: it
performs the next instruction, or it is quiet and fails only where the pointer means no cell.
`Reaches` lists, with every stage that steps lead to, the instructions completed on the way, and
what a run comes to is a stage of it.
-/
import ByteTape.Proofs.Execution.Refinement
import ByteTape.Proofs.Execution.Simulation

namespace ByteTape

variable {r : Rules}

/-! ## What a step can do -/

namespace Config

theorem guard_running {body : Program} {past : List Frame} {s : State} {c : Config}
    (h : guard body past s = .running c) : c.state = s := by
  unfold guard at h
  split at h
  · cases h
  · split at h <;> cases h <;> rfl

theorem guard_ended {body : Program} {past : List Frame} {s s' : State} {o : Outcome}
    (h : guard body past s = .ended o s') :
    s' = s ∧ ∃ e, o = .failed e ∧ s.machine.current = .error e := by
  unfold guard at h
  split at h
  · rename_i e he
    cases h
    exact ⟨rfl, e, rfl, he⟩
  · split at h <;> cases h

/-- A step that leads on has completed the next instruction, or has left the state alone. -/
theorem step_running {c c' : Config} (h : c.step r = .running c') :
    (∃ i, c.next? = some i ∧ i.perform r c.state = (.normal, c'.state)) ∨
      (c.next? = none ∧ c'.state = c.state) := by
  obtain ⟨stack, s⟩ := c
  match stack with
  | [] => cases h
  | ⟨body, .instr i rest⟩ :: outer =>
    rw [step_perform] at h
    rcases hi : i.perform r s with ⟨_ | e, s'⟩ <;> rw [hi] at h <;> cases h
    exact .inl ⟨i, rfl, hi⟩
  | ⟨body, .loop inner rest⟩ :: outer => exact .inr ⟨rfl, guard_running h⟩
  | ⟨none, .nil⟩ :: outer =>
    cases h
    exact .inr ⟨rfl, rfl⟩
  | ⟨some body, .nil⟩ :: outer => exact .inr ⟨rfl, guard_running h⟩

/-- A step that ends the run has failed at the next instruction, or has looked for a cell where
there is none, or has found nothing left to do. -/
theorem step_ended {c : Config} {o : Outcome} {s' : State} (h : c.step r = .ended o s') :
    (∃ i e, c.next? = some i ∧ o = .failed e ∧ i.perform r c.state = (.failed e, s')) ∨
      s' = c.state ∧ (o = .normal ∨ ∃ e, o = .failed e ∧ c.state.machine.current = .error e) := by
  obtain ⟨stack, s⟩ := c
  match stack with
  | [] =>
    cases h
    exact .inr ⟨rfl, .inl rfl⟩
  | ⟨body, .instr i rest⟩ :: outer =>
    rw [step_perform] at h
    rcases hi : i.perform r s with ⟨_ | e, t⟩ <;> rw [hi] at h <;> cases h
    exact .inl ⟨i, e, rfl, rfl, hi⟩
  | ⟨body, .loop inner rest⟩ :: outer =>
    obtain ⟨hs, e⟩ := guard_ended h
    exact .inr ⟨hs, .inr e⟩
  | ⟨none, .nil⟩ :: outer => cases h
  | ⟨some body, .nil⟩ :: outer =>
    obtain ⟨hs, e⟩ := guard_ended h
    exact .inr ⟨hs, .inr e⟩

end Config

/-! ## The stages of a run -/

/-- Steps from `c` lead to a stage, and complete some instructions on the way, in this order. An
instruction at which the run fails is not completed. -/
inductive Reaches (r : Rules) (c : Config) : List Instruction → Progress → Prop
  | start : Reaches r c [] (.running c)
  | step {done : List Instruction} {c₁ c₂ : Config} :
      Reaches r c done (.running c₁) → c₁.step r = .running c₂ →
        Reaches r c (done ++ c₁.next?.toList) (.running c₂)
  | ended {done : List Instruction} {c₁ : Config} {o : Outcome} {s : State} :
      Reaches r c done (.running c₁) → c₁.step r = .ended o s → Reaches r c done (.ended o s)

namespace Reaches

variable {c : Config} {done : List Instruction}

/-- What every instruction keeps holds at every stage. -/
theorem invariant {P : State → Prop} (hP : ∀ (i : Instruction) s, P s → P (i.perform r s).2)
    {g : Progress} (h : Reaches r c done g) (hc : P c.state) : P g.state := by
  induction h with
  | start => exact hc
  | step _ hs ih =>
    have := Config.step_invariant (r := r) hP ih
    rwa [hs] at this
  | ended _ hs ih =>
    have := Config.step_invariant (r := r) hP ih
    rwa [hs] at this

/-- What holds at the beginning, and is kept by every step that leads on, holds at every stage short of
an end. -/
theorem running_induction {Q : List Instruction → Config → Prop} {c₁ : Config}
    (h : Reaches r c done (.running c₁)) (hstart : Q [] c)
    (hstep : ∀ {done c₁ c₂}, Q done c₁ → c₁.step r = .running c₂ →
      Q (done ++ c₁.next?.toList) c₂) : Q done c₁ := by
  generalize hg : Progress.running c₁ = g at h
  induction h generalizing c₁ with
  | start =>
    cases hg
    exact hstart
  | step _ hs ih =>
    cases hg
    exact hstep (ih rfl) hs
  | ended => cases hg

/-- What a run comes to from a stage is itself a stage. -/
theorem run {n : Nat} {c₁ : Config} {o : Outcome} {s : State} (h : Reaches r c done (.running c₁))
    (hrun : c₁.run r n = some (o, s)) : ∃ done', Reaches r c done' (.ended o s) := by
  induction n generalizing c₁ done with
  | zero => cases hrun
  | succ n ih =>
    rw [Config.run] at hrun
    split at hrun
    · rename_i hs
      cases hrun
      exact ⟨done, h.ended hs⟩
    · rename_i hs
      exact ih (h.step hs) hrun

end Reaches

/-- What is derived of a program is a stage of its run. -/
theorem Runs.reaches {p : Program} {s s' : State} {o : Outcome} (h : Runs r p s o s') :
    ∃ done, Reaches r (.start p s) done (.ended o s') := by
  obtain ⟨n, hn⟩ := h.run
  exact Reaches.start.run hn

theorem Runs.invariant {p : Program} {s s' : State} {o : Outcome} {P : State → Prop}
    (hP : ∀ (i : Instruction) s, P s → P (i.perform r s).2) (h : Runs r p s o s') (hs : P s) :
    P s' := by
  obtain ⟨done, hdone⟩ := h.reaches
  exact hdone.invariant hP hs

/-- An execution ends before its first step, at a wrap that is not known, or at a stage of its
run. -/
theorem execute_reaches {fuel : Nat} {settings : Settings} {p : Program} {s s' : State}
    {o : Outcome} (h : execute fuel settings p s = some (o, s')) :
    (∃ v, settings.wrap = .other v ∧ o = .failed (.unhandledWrap v) ∧ s' = s) ∨
      ∃ modulus done, settings.wrap.modulus s.machine.cells.size = .ok modulus ∧
        Reaches ⟨modulus, settings.onEof⟩ (.start p s) done (.ended o s') := by
  obtain hunknown | ⟨modulus, hm, hg⟩ := execute_advance h
  · exact .inl hunknown
  · have hrun : (Config.start p s).run ⟨modulus, settings.onEof⟩ fuel = some (o, s') := by
      rw [Config.run_eq_advance, hg]
      rfl
    obtain ⟨done, hdone⟩ := Reaches.start.run hrun
    exact .inr ⟨modulus, done, hm, hdone⟩

end ByteTape
