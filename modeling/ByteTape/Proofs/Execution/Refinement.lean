/-
The stack computes the meaning of a program: an execution ends with an outcome and a state exactly
when the structure of the program derives them, and it goes on for ever exactly when nothing can
be derived.

From the stack to the meaning: what is left on a stack is itself one program, `remaining`, and
each step takes that program apart the way a derivation does. From the meaning to the stack: by
induction on the derivation, steps bring a program on top of any stack to its end, where the frame
has nothing left.
-/
import ByteTape.Execution.BigStep
import ByteTape.Proofs.Execution.Steps

namespace ByteTape

variable {r : Rules}

/-! ## One program after another -/

/-- What two programs in a row derive is derived by the first alone if that fails, and otherwise
by the second from where the first ended. -/
theorem Runs.of_append {p q : Program} {s s' : State} {o : Outcome}
    (h : Runs r (p ++ q) s o s') :
    (∃ s₁, Runs r p s .normal s₁ ∧ Runs r q s₁ o s') ∨ ∃ e, o = .failed e ∧ Runs r p s o s' := by
  induction p generalizing s s' o with
  | nil => exact .inl ⟨s, .nil, h⟩
  | instr i p ih =>
    rw [Program.instr_append] at h
    cases h with
    | instr hi h =>
      obtain ⟨s₁, hp, hq⟩ | ⟨e, ho, hp⟩ := ih h
      · exact .inl ⟨s₁, .instr hi hp, hq⟩
      · exact .inr ⟨e, ho, .instr hi hp⟩
    | instrFailed hi => exact .inr ⟨_, rfl, .instrFailed hi⟩
  | loop body p _ ih =>
    rw [Program.loop_append] at h
    -- the loop may be gone round any number of times, so by induction on the derivation
    generalize hl : Program.loop body (p ++ q) = l at h
    induction h with
    | nil | instr | instrFailed => cases hl
    | guardFailed hc => cases hl; exact .inr ⟨_, rfl, .guardFailed hc⟩
    | loopDone hc h _ =>
      cases hl
      obtain ⟨s₁, hp, hq⟩ | ⟨e, ho, hp⟩ := ih h
      · exact .inl ⟨s₁, .loopDone hc hp, hq⟩
      · exact .inr ⟨e, ho, .loopDone hc hp⟩
    | bodyFailed hc hb hbody => cases hl; exact .inr ⟨_, rfl, .bodyFailed hc hb hbody⟩
    | loopAgain hc hb hbody _ _ ihLoop =>
      cases hl
      obtain ⟨s₁, hp, hq⟩ | ⟨e, ho, hp⟩ := ihLoop rfl
      · exact .inl ⟨s₁, .loopAgain hc hb hbody hp, hq⟩
      · exact .inr ⟨e, ho, .loopAgain hc hb hbody hp⟩

theorem Runs.append {p q : Program} {s s₁ s' : State} {o : Outcome} (hp : Runs r p s .normal s₁)
    (hq : Runs r q s₁ o s') : Runs r (p ++ q) s o s' := by
  generalize ho : Outcome.normal = o₁ at hp
  induction hp with
  | nil => exact hq
  | instr hi _ ih => exact .instr hi (ih hq ho)
  | instrFailed | guardFailed | bodyFailed => cases ho
  | loopDone hcell _ ih => exact .loopDone hcell (ih hq ho)
  | loopAgain hcell hb hbody _ _ ih => exact .loopAgain hcell hb hbody (ih hq ho)

theorem Runs.append_failed {p : Program} {s s' : State} {e : Error}
    (hp : Runs r p s (.failed e) s') (q : Program) : Runs r (p ++ q) s (.failed e) s' := by
  generalize ho : Outcome.failed e = o₁ at hp ⊢
  induction hp with
  | nil => cases ho
  | instr hi _ ih => exact .instr hi (ih ho)
  | instrFailed hi => exact .instrFailed hi
  | guardFailed hcell => exact .guardFailed hcell
  | loopDone hcell _ ih => exact .loopDone hcell (ih ho)
  | bodyFailed hcell hb hbody => exact .bodyFailed hcell hb hbody
  | loopAgain hcell hb hbody _ _ ih => exact .loopAgain hcell hb hbody (ih ho)

/-- A loop whose cell is not zero comes to its body and then the loop again. -/
theorem Runs.of_unrolled {body rest : Program} {s s' : State} {b : UInt8} {o : Outcome}
    (hc : s.machine.current = .ok b) (hb : b ≠ 0) (h : Runs r (body ++ .loop body rest) s o s') :
    Runs r (.loop body rest) s o s' := by
  obtain ⟨s₁, hbody, hloop⟩ | ⟨e, rfl, hbody⟩ := h.of_append
  · exact .loopAgain hc hb hbody hloop
  · exact .bodyFailed hc hb hbody

/-! ## From the stack to the meaning -/

/-- What a frame has yet to run: the rest of its sequence and, in a loop, the loop again. -/
def Frame.remaining : Frame → Program
  | ⟨none, rest⟩ => rest
  | ⟨some body, rest⟩ => rest ++ .loop body .nil

/-- What a stack has yet to run, the innermost frame first. -/
def remaining : List Frame → Program
  | [] => .nil
  | f :: outer => f.remaining ++ remaining outer

@[simp] theorem remaining_instr (body : Option Program) (i : Instruction) (rest : Program)
    (outer : List Frame) :
    remaining (⟨body, .instr i rest⟩ :: outer) = .instr i (remaining (⟨body, rest⟩ :: outer)) := by
  cases body <;> rfl

@[simp] theorem remaining_loop (body : Option Program) (inner rest : Program)
    (outer : List Frame) :
    remaining (⟨body, .loop inner rest⟩ :: outer) =
      .loop inner (remaining (⟨body, rest⟩ :: outer)) := by
  cases body <;> rfl

/-- A frame that begins or repeats a loop has the body to run, and then the loop. -/
@[simp] theorem remaining_repeat (body rest : Program) (outer : List Frame) :
    remaining (⟨some body, rest⟩ :: outer) = rest ++ .loop body (remaining outer) := by
  simp only [remaining, Frame.remaining, Program.append_assoc, Program.loop_append,
    Program.nil_append]

/-- What can be derived at a stage of a run: from what remains on the stack, or, at an end, the
end itself. -/
def Progress.Derives (r : Rules) : Progress → Outcome → State → Prop
  | .running c, o, s' => Runs r (ByteTape.remaining c.stack) c.state o s'
  | .ended o₁ s₁, o, s' => o = o₁ ∧ s' = s₁

/-- What can be derived behind a guard can be derived of the loop. -/
theorem Config.derives_of_guard {body : Program} {past : List Frame} {s s' : State} {o : Outcome}
    (h : (guard body past s).Derives r o s') : Runs r (.loop body (remaining past)) s o s' := by
  unfold guard at h
  rcases hc : s.machine.current with e | b <;> simp only [hc] at h
  · obtain ⟨rfl, rfl⟩ := h
    exact .guardFailed hc
  · split at h
    · rename_i hb; subst hb
      exact .loopDone hc h
    · rename_i hb
      simp only [Progress.Derives, remaining_repeat] at h
      exact .of_unrolled hc hb h

/-- A step adds nothing to what can be derived. -/
theorem Config.derives_of_step {c : Config} {o : Outcome} {s' : State}
    (h : (c.step r).Derives r o s') : (Progress.running c).Derives r o s' := by
  obtain ⟨stack, s⟩ := c
  simp only [Progress.Derives]
  match stack with
  | [] =>
    obtain ⟨rfl, rfl⟩ := h
    exact .nil
  | ⟨body, .instr i rest⟩ :: outer =>
    rw [remaining_instr]
    rw [step_perform] at h
    rcases hi : i.perform r s with ⟨_ | e, s₁⟩ <;> rw [hi] at h
    · exact .instr hi h
    · obtain ⟨rfl, rfl⟩ := h
      exact .instrFailed hi
  | ⟨body, .loop inner rest⟩ :: outer =>
    rw [remaining_loop]
    rw [step_loop] at h
    exact derives_of_guard h
  | ⟨none, .nil⟩ :: outer => exact h
  | ⟨some body, .nil⟩ :: outer =>
    rw [remaining_repeat, Program.nil_append]
    rw [step_again] at h
    exact derives_of_guard h

/-- What a run comes to can be derived from what was on its stack. -/
theorem Config.runs_of_run {n : Nat} {c : Config} {o : Outcome} {s' : State}
    (h : c.run r n = some (o, s')) : Runs r (remaining c.stack) c.state o s' := by
  induction n generalizing c with
  | zero => cases h
  | succ n ih =>
    apply derives_of_step
    rw [run] at h
    split at h
    · rename_i hs
      cases h
      rw [hs]
      exact ⟨rfl, rfl⟩
    · rename_i hs
      rw [hs]
      exact ih h

/-! ## From the meaning to the stack -/

/-- On any stack, steps bring a program to what is derived of it. -/
theorem Runs.advance {p : Program} {s s' : State} {o : Outcome} (h : Runs r p s o s')
    (above : Option Program) (outer : List Frame) :
    ∃ n, (Progress.running ⟨⟨above, p⟩ :: outer, s⟩).advance r n =
      .after (⟨above, .nil⟩ :: outer) s' o := by
  induction h generalizing above outer with
  | nil => exact ⟨0, rfl⟩
  | instr hi _ ih =>
    obtain ⟨n, hn⟩ := ih above outer
    refine ⟨n + 1, ?_⟩
    rw [Progress.advance_running, Config.step_perform, hi]
    exact hn
  | instrFailed hi =>
    refine ⟨1, ?_⟩
    rw [Progress.advance_running, Config.step_perform, hi]
    rfl
  | guardFailed hc =>
    refine ⟨1, ?_⟩
    rw [Progress.advance_running, Config.step_loop, Config.guard, hc]
    rfl
  | loopDone hc _ ih =>
    obtain ⟨n, hn⟩ := ih above outer
    refine ⟨n + 1, ?_⟩
    rw [Progress.advance_running, Config.step_loop, Config.guard, hc]
    exact hn
  | @bodyFailed body rest s s₁ b e hc hb _ ih =>
    obtain ⟨n, hn⟩ := ih (some body) (⟨above, rest⟩ :: outer)
    refine ⟨n + 1, ?_⟩
    rw [Progress.advance_running, Config.step_loop, Config.guard, hc]
    simp only [if_neg hb, hn, Progress.after]
  | @loopAgain body rest s s₁ s₂ b o hc hb _ _ ihBody ihLoop =>
    obtain ⟨m, hm⟩ := ihBody (some body) (⟨above, rest⟩ :: outer)
    obtain ⟨n, hn⟩ := ihLoop above outer
    -- the second round starts at the end of the body, not before the loop: one step, the same
    -- from both, has to be taken before the two runs meet
    cases n with
    | zero => cases o <;> cases hn
    | succ n =>
      rw [Progress.advance_running, Config.step_loop] at hn
      refine ⟨m + (n + 1) + 1, ?_⟩
      rw [Progress.advance_running, Config.step_loop, Config.guard, hc]
      simp only [if_neg hb]
      rw [Progress.advance_add, hm]
      show (Config.step r _).advance r n = _
      rw [Config.step_again]
      exact hn

/-- A whole program on a stack of its own comes to what is derived of it. -/
theorem Runs.run {p : Program} {s s' : State} {o : Outcome} (h : Runs r p s o s') :
    ∃ n, (Config.start p s).run r n = some (o, s') := by
  obtain ⟨n, hn⟩ := h.advance none []
  -- two more steps: the root frame is taken off, and the empty stack ends the run
  refine ⟨n + 2, ?_⟩
  rw [Config.run_eq_advance, Progress.advance_add]
  unfold Config.start
  rw [hn]
  cases o <;> rfl

theorem Config.run_iff_runs {p : Program} {s s' : State} {o : Outcome} :
    (∃ n, (Config.start p s).run r n = some (o, s')) ↔ Runs r p s o s' := by
  constructor
  · rintro ⟨n, h⟩
    simpa [Config.start, remaining, Frame.remaining] using Config.runs_of_run h
  · exact Runs.run

/-- One end at most can be derived. -/
theorem Runs.unique {p : Program} {s s₁ s₂ : State} {o₁ o₂ : Outcome} (h₁ : Runs r p s o₁ s₁)
    (h₂ : Runs r p s o₂ s₂) : o₁ = o₂ ∧ s₁ = s₂ := by
  obtain ⟨m, hm⟩ := h₁.run
  obtain ⟨n, hn⟩ := h₂.run
  have hsame := (Config.run_mono (le_max_left m n) hm).symm.trans
    (Config.run_mono (le_max_right m n) hn)
  exact Prod.mk.inj (Option.some.inj hsame)

/-! ## Executions -/

/-- Some amount of fuel gives a result exactly when it can be derived. -/
theorem execute_iff_yields {settings : Settings} {p : Program} {s s' : State} {o : Outcome} :
    (∃ fuel, execute fuel settings p s = some (o, s')) ↔ Yields settings p s o s' := by
  unfold execute
  cases hw : settings.wrap.modulus s.machine.cells.size with
  | error e =>
    constructor
    · rintro ⟨_, h⟩
      cases h
      exact .unhandled hw
    · rintro (h | ⟨h, _⟩) <;> rw [hw] at h <;> cases h
      exact ⟨0, rfl⟩
  | ok modulus =>
    simp only [Config.run_iff_runs]
    constructor
    · exact .ran hw
    · rintro (h | ⟨h, hr⟩) <;> rw [hw] at h <;> cases h
      exact hr

theorem ends_iff_yields {settings : Settings} {p : Program} {s s' : State} {o : Outcome} :
    Ends settings p s o s' ↔ Yields settings p s o s' := ends_iff.trans execute_iff_yields

namespace Yields

variable {settings : Settings} {p q : Program} {s s' : State} {o : Outcome}

/-- Under a wrap that is known, what is yielded has been derived with its modulus. -/
theorem runs {modulus : Nat} (hm : settings.wrap.modulus s.machine.cells.size = .ok modulus)
    (h : Yields settings p s o s') : Runs ⟨modulus, settings.onEof⟩ p s o s' := by
  cases h with
  | unhandled he =>
    rw [hm] at he
    cases he
  | ran hm' hruns =>
    rw [hm] at hm'
    cases hm'
    exact hruns

/-- An end that is derived of one program whenever it is derived of another is yielded likewise. -/
theorem imp (h : Yields settings p s o s')
    (hpq : ∀ {modulus}, settings.wrap.modulus s.machine.cells.size = .ok modulus →
      Runs ⟨modulus, settings.onEof⟩ p s o s' → Runs ⟨modulus, settings.onEof⟩ q s o s') :
    Yields settings q s o s' := by
  cases h with
  | unhandled he => exact .unhandled he
  | ran hm hruns => exact .ran hm (hpq hm hruns)

end Yields

/-- For every program, machine, settings and streams: an execution ends with an outcome in a state
exactly when these can be derived, and it never ends exactly when nothing can be. -/
theorem execution_refines_meaning (settings : Settings) (p : Program) (s : State) :
    (∀ o s', Ends settings p s o s' ↔ Yields settings p s o s') ∧
      ((∀ fuel, execute fuel settings p s = none) ↔ ∀ o s', ¬ Yields settings p s o s') := by
  have hends : ∀ o s', Ends settings p s o s' ↔ Yields settings p s o s' := fun o s' =>
    ends_iff.trans execute_iff_yields
  refine ⟨hends, ?_⟩
  constructor
  · intro h o s' hy
    obtain ⟨fuel, hf⟩ := execute_iff_yields.2 hy
    rw [h fuel] at hf; cases hf
  · intro h fuel
    rcases hx : execute fuel settings p s with _ | ⟨o, s'⟩
    · rfl
    · exact absurd (execute_iff_yields.1 ⟨fuel, hx⟩) (h o s')

end ByteTape
