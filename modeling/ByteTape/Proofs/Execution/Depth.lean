/-
How high the stack grows, and how a run ends. Since the frames stand inside one another as the loops
do, a frame lies as deep in the program as there are frames below it: the stack holds one frame more
than loops nest, at most, and a loop that is gone round again takes no new one. The root is the frame
that leaves last, and it leaves when nothing is left of the program; so a run that ends normally has
run the whole of it.
-/
import ByteTape.Proofs.Execution.Nesting

namespace ByteTape

variable {r : Rules} {p : Program}

/-! ## Frames on frames -/

/-- The frame `f` runs the body of a loop, and has come to some place in it, and that loop stands in
the sequence of the frame `g`, right before the place to which `g` has come. -/
def Frame.Inside (p : Program) (f g : Frame) : Prop :=
  ∃ before body passed, f.body = some body ∧ g.sequence p = before ++ .loop body g.rest ∧
    body = passed ++ f.rest

namespace Program

theorem depth_append (p q : Program) : (p ++ q).depth = max p.depth q.depth := by
  induction p with
  | nil => exact (Nat.zero_max _).symm
  | instr i rest ih => exact ih
  | loop body rest _ ih => rw [loop_append, depth, depth, ih, max_assoc]

namespace Nests

variable {stack outer : List Frame} {f : Frame}

/-- The root lies at the bottom, and has come to some place in the program. -/
theorem bottom (h : p.Nests stack) :
    ∃ above rest before, stack = above ++ [⟨none, rest⟩] ∧ p = before ++ rest := by
  induction h with
  | @root before rest hp => exact ⟨[], rest, before, rfl, hp⟩
  | @inner f outer _ body _ rest _ _ _ ih =>
    obtain ⟨above, rest', before, hstack, hp⟩ := ih
    exact ⟨⟨some body, rest⟩ :: above, rest', before, by rw [hstack]; rfl, hp⟩

/-- Every frame above another stands inside it. -/
theorem inside {above : List Frame} {g : Frame} (h : p.Nests stack)
    (hstack : stack = above ++ f :: g :: outer) : f.Inside p g := by
  induction h generalizing above with
  | root => cases above <;> simp at hstack
  | @inner f' outer' before body passed rest _ hloop hbody ih =>
    cases above with
    | nil =>
      cases hstack
      exact ⟨before, body, passed, rfl, hloop, hbody⟩
    | cons _ above => exact ih (List.cons.inj hstack).2

/-- Below a frame there are no more frames than loops around its sequence. -/
theorem depth_le (h : p.Nests (f :: outer)) : (f.sequence p).depth + outer.length ≤ p.depth := by
  generalize hstack : f :: outer = stack at h
  induction h generalizing f outer with
  | root =>
    cases hstack
    exact le_refl _
  | @inner g outer' before body _ rest _ hloop _ ih =>
    cases hstack
    have hbody : body.depth + 1 ≤ (g.sequence p).depth := by
      rw [hloop, depth_append, depth]
      omega
    have hbelow := ih rfl
    show body.depth + (outer'.length + 1) ≤ p.depth
    omega

theorem length_le (h : p.Nests stack) : stack.length ≤ p.depth + 1 := by
  cases stack with
  | nil => exact Nat.zero_le _
  | cons f outer =>
    have hdepth := h.depth_le
    rw [List.length_cons]
    omega

end Nests

end Program

/-! ## The last steps -/

namespace Config

/-- Only where no frame is left does a step end a run normally. -/
theorem eq_of_step_normal {c : Config} {s' : State} (h : c.step r = .ended .normal s') :
    c = ⟨[], s'⟩ := by
  obtain ⟨stack, s⟩ := c
  match stack with
  | [] =>
    cases h
    rfl
  | ⟨body, .instr i rest⟩ :: outer =>
    rw [step_perform] at h
    rcases hi : i.perform r s with ⟨_ | e, t⟩ <;> rw [hi] at h <;> cases h
  | ⟨body, .loop inner rest⟩ :: outer =>
    obtain ⟨-, e, ho, -⟩ := guard_ended h
    cases ho
  | ⟨none, .nil⟩ :: outer => cases h
  | ⟨some body, .nil⟩ :: outer =>
    obtain ⟨-, e, ho, -⟩ := guard_ended h
    cases ho

theorem stack_ne_nil_of_guard {body : Program} {past : List Frame} {s : State} {c : Config}
    (h : guard body past s = .running c) (hpast : past ≠ []) : c.stack ≠ [] := by
  unfold guard at h
  split at h
  · cases h
  · split at h <;> cases h
    · exact hpast
    · exact List.cons_ne_nil _ _

/-- The step that takes off the last frame takes off the root, with nothing left of the program. -/
theorem eq_of_step_emptied {c : Config} {s' : State} (hc : p.Nests c.stack)
    (h : c.step r = .running ⟨[], s'⟩) : c = ⟨[⟨none, .nil⟩], s'⟩ := by
  obtain ⟨stack, s⟩ := c
  match stack, hc with
  | ⟨body, .instr i rest⟩ :: outer, _ =>
    rw [step_perform] at h
    rcases hi : i.perform r s with ⟨_ | e, t⟩ <;> rw [hi] at h <;> cases h
  | ⟨body, .loop inner rest⟩ :: outer, _ =>
    exact absurd rfl (stack_ne_nil_of_guard h (List.cons_ne_nil _ _))
  | ⟨none, .nil⟩ :: outer, _ =>
    cases h
    rfl
  | ⟨some body, .nil⟩ :: outer, hc =>
    cases hc with
    | inner => exact absurd rfl (stack_ne_nil_of_guard h (List.cons_ne_nil _ _))

end Config

namespace Reaches

variable {s s' : State} {done : List Instruction}

theorem length_le {c : Config} (h : Reaches r (.start p s) done (.running c)) :
    c.stack.length ≤ p.depth + 1 := by
  rcases h.nests with hnests | hstack
  · exact hnests.length_le
  · rw [hstack]
    exact Nat.zero_le _

/-- What is derived at a stage of a run is derived of the program. -/
theorem derives {c : Config} {g : Progress} {o : Outcome} (h : Reaches r c done g)
    (hg : g.Derives r o s') : (Progress.running c).Derives r o s' := by
  induction h with
  | start => exact hg
  | step _ hs ih => exact ih (Config.derives_of_step (by rw [hs]; exact hg))
  | ended _ hs ih => exact ih (Config.derives_of_step (by rw [hs]; exact hg))

theorem runs {o : Outcome} (h : Reaches r (.start p s) done (.ended o s')) : Runs r p s o s' := by
  have hderives := h.derives ⟨rfl, rfl⟩
  simpa [Progress.Derives, Config.start, remaining, Frame.remaining] using hderives

/-- Before a run ends normally nothing but the root is left on the stack, and nothing of that. -/
theorem root_of_normal (h : Reaches r (.start p s) done (.ended .normal s')) :
    Reaches r (.start p s) done (.running ⟨[⟨none, .nil⟩], s'⟩) := by
  cases h with
  | @ended _ c _ _ hc hs =>
    cases Config.eq_of_step_normal hs
    cases hc with
    | @step done c _ hc hs =>
      have hnests : p.Nests c.stack := by
        rcases hc.nests with hnests | hstack
        · exact hnests
        · obtain ⟨stack, t⟩ := c
          cases hstack
          cases hs
      cases Config.eq_of_step_emptied hnests hs
      simpa [Config.next?] using hc

end Reaches

/-- At every stage of a run at which the stack is not empty, the root lies at the bottom of it and
has come to some place in the program, and every other frame runs the body of a loop that stands in
the sequence of the frame below, right before the place to which that has come, and has come to some
place in that body. So at no stage are there more frames than one and as many as loops nest in the
program. A run ends normally only from a stage at which nothing is left on the stack but the root,
and nothing of the program, and then the program has been run as a whole. -/
theorem frames_stand_inside_one_another (r : Rules) (p : Program) (s : State) :
    (∀ done c, Reaches r (.start p s) done (.running c) → c.stack ≠ [] →
      (∃ above rest before, c.stack = above ++ [⟨none, rest⟩] ∧ p = before ++ rest) ∧
      ∀ above f g outer, c.stack = above ++ f :: g :: outer → f.Inside p g) ∧
    (∀ done c, Reaches r (.start p s) done (.running c) → c.stack.length ≤ p.depth + 1) ∧
    ∀ done s', Reaches r (.start p s) done (.ended .normal s') →
      Reaches r (.start p s) done (.running ⟨[⟨none, .nil⟩], s'⟩) ∧ Runs r p s .normal s' := by
  refine ⟨fun done c h hstack => ?_, fun done c h => h.length_le,
    fun done s' h => ⟨h.root_of_normal, h.runs⟩⟩
  have hnests : p.Nests c.stack := h.nests.resolve_right hstack
  exact ⟨hnests.bottom, fun above f g outer hframes => hnests.inside hframes⟩

/-- In `+[[-]]` two loops nest, and three frames are reached, the innermost one inside the second; the
program ends normally, and before that only its root is left. -/
theorem frames_stand_inside_one_another_two_loops :
    let drain : Program := .instr (.op .decrement) .nil
    let p : Program := .instr (.op .increment) (.loop (.loop drain .nil) .nil)
    let s : State := ⟨.fresh 1, {}⟩
    let raised : State := ⟨⟨#[1], 0⟩, {}⟩
    let stack : List Frame := [⟨some drain, drain⟩, ⟨some (.loop drain .nil), .nil⟩, ⟨none, .nil⟩]
    p.depth = 2 ∧ Reaches ⟨256, .abort⟩ (.start p s) [.op .increment] (.running ⟨stack, raised⟩) ∧
    stack.length ≤ p.depth + 1 ∧
    Frame.Inside p ⟨some drain, drain⟩ ⟨some (.loop drain .nil), .nil⟩ ∧
    ∃ done s', Reaches ⟨256, .abort⟩ (.start p s) done (.ended .normal s') ∧
      Reaches ⟨256, .abort⟩ (.start p s) done (.running ⟨[⟨none, .nil⟩], s'⟩) := by
  intro drain p s raised stack
  obtain ⟨hinside, hlength, hnormal⟩ := frames_stand_inside_one_another ⟨256, .abort⟩ p s
  have hraise : (Config.start p s).step ⟨256, .abort⟩ =
      .running ⟨[⟨none, .loop (.loop drain .nil) .nil⟩], raised⟩ := rfl
  have houter : Config.step ⟨256, .abort⟩ ⟨[⟨none, .loop (.loop drain .nil) .nil⟩], raised⟩ =
      .running ⟨[⟨some (.loop drain .nil), .loop drain .nil⟩, ⟨none, .nil⟩], raised⟩ := rfl
  have hinner : Config.step ⟨256, .abort⟩
      ⟨[⟨some (.loop drain .nil), .loop drain .nil⟩, ⟨none, .nil⟩], raised⟩ =
        .running ⟨stack, raised⟩ := rfl
  have hreach : Reaches ⟨256, .abort⟩ (.start p s) [.op .increment] (.running ⟨stack, raised⟩) :=
    ((Reaches.start.step hraise).step houter).step hinner
  have hexecute : execute 8 {} p s = some (.normal, ⟨⟨#[0], 0⟩, {}⟩) := rfl
  obtain ⟨v, hwrap, -⟩ | ⟨modulus, done, hm, hend⟩ := execute_reaches hexecute
  · cases hwrap
  · cases hm
    exact ⟨rfl, hreach, hlength _ _ hreach,
      (hinside _ _ hreach (List.cons_ne_nil _ _)).2 [] _ _ [⟨none, .nil⟩] rfl,
      done, _, hend, (hnormal _ _ hend).1⟩

end ByteTape
