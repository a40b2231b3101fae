/-
The shape of the stack. Each frame has come to some place in its own sequence: the root, at the
bottom, in the program, any other one in the body of a loop. And the loop whose body it is stands in
the sequence of the frame below it, right before the place to which that one has come; so a frame that
is taken off leaves the one below right behind its loop.
-/
import ByteTape.Proofs.Execution.Reachable

namespace ByteTape

variable {r : Rules} {p : Program}

/-- The whole sequence that a frame runs: the body of a loop or, at the root, the program. -/
def Frame.sequence (p : Program) (f : Frame) : Program := f.body.getD p

/-- The frames of a stack, in a run of `p`, stand inside one another as the loops do in `p`. -/
inductive Program.Nests (p : Program) : List Frame → Prop
  | root {before rest : Program} : p = before ++ rest → p.Nests [⟨none, rest⟩]
  | inner {f : Frame} {outer : List Frame} {before body passed rest : Program} :
      p.Nests (f :: outer) → f.sequence p = before ++ .loop body f.rest → body = passed ++ rest →
        p.Nests (⟨some body, rest⟩ :: f :: outer)

namespace Program.Nests

variable {body : Option Program} {rest : Program} {outer : List Frame}

/-- The innermost frame has come to some place in its sequence. -/
theorem place {f : Frame} (h : p.Nests (f :: outer)) : ∃ before, f.sequence p = before ++ f.rest := by
  cases h with
  | root hp => exact ⟨_, hp⟩
  | inner _ _ hbody => exact ⟨_, hbody⟩

/-- The innermost frame may come to any other place in its sequence. -/
theorem go (h : p.Nests (⟨body, rest⟩ :: outer)) (before : Program) {rest' : Program}
    (hplace : Frame.sequence p ⟨body, rest⟩ = before ++ rest') :
    p.Nests (⟨body, rest'⟩ :: outer) := by
  cases h with
  | root => exact .root hplace
  | inner houter hloop => exact .inner houter hloop hplace

theorem pass_instr {i : Instruction} (h : p.Nests (⟨body, .instr i rest⟩ :: outer)) :
    p.Nests (⟨body, rest⟩ :: outer) := by
  obtain ⟨before, hplace⟩ := h.place
  refine h.go (before ++ .instr i .nil) ?_
  rw [append_assoc]
  exact hplace

theorem pass_loop {inner : Program} (h : p.Nests (⟨body, .loop inner rest⟩ :: outer)) :
    p.Nests (⟨body, rest⟩ :: outer) := by
  obtain ⟨before, hplace⟩ := h.place
  refine h.go (before ++ .loop inner .nil) ?_
  rw [append_assoc]
  exact hplace

/-- The body of a loop is entered from right behind the loop. -/
theorem enter {inner : Program} (h : p.Nests (⟨body, .loop inner rest⟩ :: outer)) :
    p.Nests (⟨some inner, inner⟩ :: ⟨body, rest⟩ :: outer) := by
  obtain ⟨before, hplace⟩ := h.place
  exact .inner h.pass_loop hplace (nil_append inner).symm

theorem again {loop : Program} (h : p.Nests (⟨some loop, rest⟩ :: outer)) :
    p.Nests (⟨some loop, loop⟩ :: outer) :=
  h.go .nil (nil_append loop).symm

theorem leave {loop : Program} (h : p.Nests (⟨some loop, rest⟩ :: outer)) : p.Nests outer := by
  cases h with
  | inner houter => exact houter

end Program.Nests

namespace Config

theorem nests_of_guard {body : Program} {past : List Frame} {s : State} {c : Config}
    (h : guard body past s = .running c) (hpast : p.Nests past)
    (hbody : p.Nests (⟨some body, body⟩ :: past)) : p.Nests c.stack := by
  unfold guard at h
  split at h
  · cases h
  · split at h <;> cases h
    · exact hpast
    · exact hbody

/-- A step leads to such a stack again, unless it takes off the root. -/
theorem step_nests {c c' : Config} (h : c.step r = .running c') (hc : p.Nests c.stack) :
    p.Nests c'.stack ∨ c'.stack = [] := by
  obtain ⟨stack, s⟩ := c
  match stack, hc with
  | ⟨body, .instr i rest⟩ :: outer, hc =>
    rw [step_perform] at h
    rcases hi : i.perform r s with ⟨_ | e, s'⟩ <;> rw [hi] at h <;> cases h
    exact .inl hc.pass_instr
  | ⟨body, .loop inner rest⟩ :: outer, hc =>
    rw [step_loop] at h
    exact .inl (nests_of_guard h hc.pass_loop hc.enter)
  | ⟨none, .nil⟩ :: outer, hc =>
    cases h
    cases hc with
    | root => exact .inr rfl
  | ⟨some body, .nil⟩ :: outer, hc =>
    rw [step_again] at h
    exact .inl (nests_of_guard h hc.leave hc.again)

end Config

/-- At every stage of a run the frames stand inside one another as the loops do, until none is left. -/
theorem Reaches.nests {s : State} {done : List Instruction} {c : Config}
    (h : Reaches r (.start p s) done (.running c)) : p.Nests c.stack ∨ c.stack = [] := by
  refine h.running_induction (Q := fun _ c => p.Nests c.stack ∨ c.stack = []) ?_ ?_
  · exact .inl (.root (Program.nil_append p).symm)
  · rintro _ ⟨stack, s₁⟩ c₂ (hnests | rfl) hs
    · exact Config.step_nests hs hnests
    · cases hs

end ByteTape
