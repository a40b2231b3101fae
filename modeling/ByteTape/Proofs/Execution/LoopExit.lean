/-
Where loops end. A loop is left only by its guard, on entry or after a pass, so wherever a run stands
right behind a loop the current cell is there and is zero. A loop that comes next is skipped: in any
program a loop after a loop can be left out, and on a new machine, whose cells are all zero, so can
the loops with which a program begins.
-/
import ByteTape.Proofs.Execution.Context
import ByteTape.Proofs.Execution.Nesting
import ByteTape.Proofs.Interpret
import ByteTape.Proofs.Sequence

namespace ByteTape

variable {r : Rules} {settings : Settings} {p q : Program} {s s' : State} {o : Outcome}

/-! ## Behind a loop -/

/-- In its sequence, the frame has come to the place right behind a loop. -/
def Frame.BehindLoop (p : Program) (f : Frame) : Prop :=
  ∃ before body, f.sequence p = before ++ .loop body f.rest

namespace Frame

theorem not_behindLoop_of_start {f : Frame} (h : f.sequence p = f.rest) : ¬ f.BehindLoop p := by
  rintro ⟨before, body, hbehind⟩
  have hlength := congrArg Program.length (h.symm.trans hbehind)
  rw [Program.length_append, Program.length] at hlength
  omega

theorem not_behindLoop_of_instr {f : Frame} {before : Program} {i : Instruction}
    (h : f.sequence p = before ++ .instr i f.rest) : ¬ f.BehindLoop p := by
  rintro ⟨before', body, hbehind⟩
  have hsame := Program.append_inj_right (h.symm.trans hbehind) rfl
  cases hsame

end Frame

namespace Config

/-- A guard that leads past its loop has found a zero. -/
theorem current_of_guard {body : Program} {past : List Frame} {s : State} {c : Config}
    (h : guard body past s = .running c) :
    c.state.machine.current = .ok 0 ∨ c.stack = ⟨some body, body⟩ :: past := by
  unfold guard at h
  split at h
  · cases h
  · rename_i b hcurrent
    split at h <;> cases h
    · rename_i hzero
      exact .inl (hzero ▸ hcurrent)
    · exact .inr rfl

/-- A step that leads behind a loop leaves a zero in the current cell. -/
theorem step_behindLoop {c c' : Config} {f : Frame} {outer : List Frame}
    (h : c.step r = .running c') (hc : p.Nests c.stack) (hstack : c'.stack = f :: outer)
    (hf : f.BehindLoop p) : c'.state.machine.current = .ok 0 := by
  have hguard : ∀ {body past s}, guard body past s = .running c' →
      c'.state.machine.current = .ok 0 := by
    intro body past s hguard
    obtain hzero | hentered := current_of_guard hguard
    · exact hzero
    · -- the body of a loop that is begun has no loop in front of it
      rw [hstack] at hentered
      cases hentered
      exact absurd hf (Frame.not_behindLoop_of_start rfl)
  obtain ⟨stack, s⟩ := c
  match stack, hc with
  | ⟨body, .instr i rest⟩ :: _, hc =>
    obtain ⟨before, hplace⟩ := hc.place
    rw [step_perform] at h
    rcases hi : i.perform r s with ⟨_ | e, s'⟩ <;> rw [hi] at h <;> cases h
    cases hstack
    exact absurd hf (Frame.not_behindLoop_of_instr hplace)
  | ⟨body, .loop inner rest⟩ :: _, _ => exact hguard h
  | ⟨none, .nil⟩ :: _, hc =>
    -- the root is the last frame to be taken off
    cases h
    cases hc
    cases hstack
  | ⟨some body, .nil⟩ :: _, _ => exact hguard h

end Config

/-- At every stage of a run that has come to the place right behind a loop, the current cell is zero. -/
theorem Reaches.current_behindLoop {done : List Instruction} {c : Config} {f : Frame}
    {outer : List Frame} (h : Reaches r (.start p s) done (.running c))
    (hstack : c.stack = f :: outer) (hf : f.BehindLoop p) : c.state.machine.current = .ok 0 := by
  cases h with
  | start =>
    cases hstack
    exact absurd hf (Frame.not_behindLoop_of_start rfl)
  | @step _ c₁ _ hreach hs =>
    obtain hnests | hempty := hreach.nests
    · exact Config.step_behindLoop hs hnests hstack hf
    · obtain ⟨stack, s₁⟩ := c₁
      cases hempty
      cases hs

/-! ## Loops at the beginning -/

/-- A sequence of loops and nothing else. -/
def Program.IsLoops : Program → Prop
  | .nil => True
  | .instr _ _ => False
  | .loop _ rest => rest.IsLoops

theorem runs_loops_append_iff (hp : p.IsLoops) (hs : s.machine.current = .ok 0) :
    Runs r (p ++ q) s o s' ↔ Runs r q s o s' := by
  induction p with
  | nil => rfl
  | instr i rest => exact hp.elim
  | loop body rest _ ih =>
    rw [Program.loop_append, ← ih hp]
    constructor
    · intro h
      cases h with
      | loopDone _ hrest => exact hrest
      | guardFailed he =>
        rw [hs] at he
        cases he
      | bodyFailed he hne | loopAgain he hne =>
        rw [hs] at he
        cases he
        exact absurd rfl hne
    · exact .loopDone hs

theorem ends_loops_append_iff (hp : p.IsLoops) (hs : s.machine.current = .ok 0) :
    Ends settings (p ++ q) s o s' ↔ Ends settings q s o s' := by
  rw [ends_iff_yields, ends_iff_yields]
  constructor
  · exact fun h => h.imp fun _ => (runs_loops_append_iff hp hs).1
  · exact fun h => h.imp fun _ => (runs_loops_append_iff hp hs).2

/-! ## Interpreting sources -/

/-- What interpreting a source comes to, but for the log: an outcome and the streams, or nothing if
it goes on for ever. -/
def interpretResults (settings : Settings) (source : List UInt8) (st : Streams) :
    Set (Outcome × Streams) :=
  {x | ∃ fuel o st', interpret fuel settings source st = some (o, st') ∧ x = (o, st'.withoutLog)}

theorem conclude_withoutLog {st st' : Streams} (h : st.withoutLog = st'.withoutLog) (o : Outcome) :
    ((conclude o st).1, (conclude o st).2.withoutLog) =
      ((conclude o st').1, (conclude o st').2.withoutLog) := by
  obtain ⟨houtcome, hst⟩ := Streams.inStep_withoutLog.conclude h o
  rw [houtcome, hst]

/-- Sources whose programs end alike on a new machine are interpreted alike. -/
theorem interpretResults_subset {a b : List UInt8} {st : Streams}
    (ha : (Program.load settings.strict a).result = .ok p)
    (hb : (Program.load settings.strict b).result = .ok q)
    (h : ∀ st o s', Ends settings p ⟨.fresh Machine.defaultSize, st⟩ o s' →
      Ends settings q ⟨.fresh Machine.defaultSize, st⟩ o s') :
    interpretResults settings a st ⊆ interpretResults settings b st := by
  rintro _ ⟨fuel, o, st', hx, rfl⟩
  obtain ⟨o₁, s₁, hx, hend⟩ := (interpret_eq_some_iff ha).1 hx
  have hlog : (State.mk (.fresh Machine.defaultSize) (st.recordLoad settings a)).withoutLog =
      (State.mk (.fresh Machine.defaultSize) (st.recordLoad settings b)).withoutLog := rfl
  obtain ⟨t₁, ht, hlog'⟩ := (h _ _ _ (ends_iff.2 ⟨fuel, hx⟩)).withoutLog hlog
  obtain ⟨fuel', hy⟩ := ends_iff.1 ht
  have hy' : interpret fuel' settings b st = some (conclude o₁ t₁.streams) :=
    (interpret_eq_some_iff hb).2 ⟨o₁, t₁, hy, rfl⟩
  have hsame := conclude_withoutLog (congrArg State.streams hlog') o₁
  rw [show conclude o₁ s₁.streams = (o, st') from hend] at hsame
  exact ⟨fuel', (conclude o₁ t₁.streams).1, (conclude o₁ t₁.streams).2, hy', hsame⟩

/-- Whatever is run, at every stage that stands right behind a loop, whether it was skipped or gone
round, the current cell is on the tape and is zero. So a loop right behind a loop is never entered: in
any program, in any places and at any depth, a loop and then another one come to what the first of
them comes to alone, on every machine and all streams, and go on for ever exactly if it does. And
interpreting a source comes to the same, but for the log, without loops with which its program
begins. -/
theorem loops_end_on_zero :
    (∀ (settings : Settings) (p : Program) (s : State) (modulus : Nat) (done : List Instruction)
      (c : Config) (f : Frame) (outer : List Frame),
      settings.wrap.modulus s.machine.cells.size = .ok modulus →
      Reaches ⟨modulus, settings.onEof⟩ (.start p s) done (.running c) →
      c.stack = f :: outer → f.BehindLoop p →
        ∃ i, c.state.machine.index = .ok i ∧ c.state.machine.cells[i]? = some 0) ∧
    (∀ (settings : Settings) (b c : Program) (C : Program.Context) (s : State),
      (∀ o s', Ends settings (C.fill (.loop b (.loop c .nil))) s o s' ↔
        Ends settings (C.fill (.loop b .nil)) s o s') ∧
      ((∀ fuel, execute fuel settings (C.fill (.loop b (.loop c .nil))) s = none) ↔
        ∀ fuel, execute fuel settings (C.fill (.loop b .nil)) s = none)) ∧
    ∀ (settings : Settings) (a b : List UInt8) (loops p : Program) (st : Streams), loops.IsLoops →
      (Program.load settings.strict a).result = .ok (loops ++ p) →
      (Program.load settings.strict b).result = .ok p →
        interpretResults settings a st = interpretResults settings b st := by
  refine ⟨?_, ?_, ?_⟩
  · intro settings p s modulus done c f outer _ h hstack hf
    exact Machine.current_eq_ok_iff.1 (h.current_behindLoop hstack hf)
  · intro settings b c C s
    have hequiv : Equivalent settings (.loop b (.loop c .nil)) (.loop b .nil) :=
      equivalent_of_runs fun _ _ _ _ => Runs.loop_loop_iff
    refine ⟨fun o s' => hequiv.ends_fill_iff C, ?_⟩
    simp only [never_ends_iff, hequiv.ends_fill_iff C]
  · intro settings a b loops p st hloops ha hb
    have hends : ∀ st o s', Ends settings (loops ++ p) ⟨.fresh Machine.defaultSize, st⟩ o s' ↔
        Ends settings p ⟨.fresh Machine.defaultSize, st⟩ o s' := fun st o s' =>
      ends_loops_append_iff hloops (Machine.current_fresh (by decide))
    apply Set.Subset.antisymm
    · exact interpretResults_subset ha hb fun st o s' => (hends st o s').1
    · exact interpretResults_subset hb ha fun st o s' => (hends st o s').2

/-- The loop of `+[-]` is left after one pass, with a zero in the cell that it has counted down; in
`[.]+,` the first loop is skipped, so it is interpreted as `+,` is. -/
theorem loops_end_on_zero_after_a_pass :
    let body : Program := .instr (.op .decrement) .nil
    let p : Program := .instr (.op .increment) (.loop body .nil)
    let s : State := ⟨.fresh 2, {}⟩
    (∃ c, Reaches ⟨256, .abort⟩ (.start p s) [.op .increment, .op .decrement] (.running c) ∧
      c.stack = [⟨none, .nil⟩] ∧ Frame.BehindLoop p ⟨none, .nil⟩ ∧
      ∃ i, c.state.machine.index = .ok i ∧ c.state.machine.cells[i]? = some 0) ∧
    interpretResults {} [0x5b, 0x2e, 0x5d, 0x2b, 0x2c] {} = interpretResults {} [0x2b, 0x2c] {} := by
  intro body p s
  obtain ⟨hstages, -, hinterpret⟩ := loops_end_on_zero
  have hincrement : (Config.start p s).step ⟨256, .abort⟩ = .running _ := rfl
  have henter : Config.step ⟨256, .abort⟩ ⟨[⟨none, .loop body .nil⟩], ⟨⟨#[1, 0], 0⟩, {}⟩⟩ =
      .running _ := rfl
  have hdecrement : Config.step ⟨256, .abort⟩
      ⟨[⟨some body, body⟩, ⟨none, .nil⟩], ⟨⟨#[1, 0], 0⟩, {}⟩⟩ = .running _ := rfl
  have hleave : Config.step ⟨256, .abort⟩
      ⟨[⟨some body, .nil⟩, ⟨none, .nil⟩], ⟨⟨#[0, 0], 0⟩, {}⟩⟩ = .running _ := rfl
  have hreach : Reaches ⟨256, .abort⟩ (.start p s) [.op .increment, .op .decrement] _ :=
    (((Reaches.start.step hincrement).step henter).step hdecrement).step hleave
  have hbehind : Frame.BehindLoop p ⟨none, .nil⟩ := ⟨.instr (.op .increment) .nil, body, rfl⟩
  refine ⟨⟨_, hreach, rfl, hbehind, hstages {} p s 256 _ _ _ _ rfl hreach rfl hbehind⟩, ?_⟩
  exact hinterpret {} _ _ (.loop (.instr (.op .write) .nil) .nil)
    (.instr (.op .increment) (.instr (.op .read) .nil)) {} trivial rfl rfl

end ByteTape
