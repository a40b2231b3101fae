/-
What hangs on the end of the input. The policy for it is asked by a read that finds nothing, and by
nothing else; and results that are fed behind a source are not read before it is used up. So a run
that fails at the end of the input is followed, up to there, by the run under any other policy and on
any longer source: one that ends otherwise comes to the same end, and one that fails there tells of a
read that the other runs come to in the same state.
-/
import ByteTape.Proofs.Execution.Tracking

namespace ByteTape

/-- The input was exhausted. -/
def Error.IsExhausted : Error → Prop
  | .inputExhausted _ => True
  | _ => False

/-- The state with more to read. -/
def State.feed (more : Source) (s : State) : State := s.onStreams (·.feed more)

/-- At this stage a read comes next, whose flush goes well and which then finds nothing; `s'` is the
state that it leaves to the policy. -/
structure Config.ReadsNothing (c : Config) (s' : State) : Prop where
  next : c.next? = some (.op .read)
  flushed : c.state.streams.flush.1 = .normal
  nothing : c.state.streams.flush.2.read.1.byte? = .ok none
  state : s' = ⟨c.state.machine, c.state.streams.flush.2.read.2⟩

/-! ## Single instructions -/

namespace State

variable (policy : EofPolicy) (more : Source) (s : State)

/-- Anything but nothing is received alike under every policy. -/
theorem receive_feed (x : ReadResult) :
    Tracked Error.IsExhausted (feed more) (s.receive .abort x) ((s.feed more).receive policy x) := by
  unfold receive
  cases x.byte? with
  | error f => exact .inl rfl
  | ok b? =>
    cases b? with
    | some b => exact .inl (modifyCell_onStreams _ s _)
    | none => exact .inr ⟨_, rfl, trivial⟩

theorem write_feed : (s.feed more).write = (s.write.1, s.write.2.feed more) := by
  cases hc : s.machine.current with
  | error e =>
    have hc' : (s.feed more).machine.current = .error e := hc
    rw [write_of_error hc, write_of_error hc']
  | ok b =>
    have hc' : (s.feed more).machine.current = .ok b := hc
    have hwrite : (s.feed more).streams.write b = _ := Streams.feed_write s.streams b more
    rw [write_of_current hc, write_of_current hc', hwrite]
    rfl

/-- A read is the same on a longer source and under every policy, unless it finds nothing. -/
theorem read_feed :
    Tracked Error.IsExhausted (feed more) (s.read .abort) ((s.feed more).read policy) := by
  have hflush : (s.feed more).streams.flush = (s.streams.flush.1, s.streams.flush.2.feed more) :=
    Streams.feed_flush s.streams more
  cases hf : s.streams.flush.1 with
  | failed e =>
    have hf' : (s.feed more).streams.flush.1 = .failed e := by rw [hflush, hf]
    rw [read_of_flush_failed hf, read_of_flush_failed hf', hflush]
    exact .inl rfl
  | normal =>
    have hf' : (s.feed more).streams.flush.1 = .normal := by rw [hflush, hf]
    rw [read_of_flushed hf, read_of_flushed hf', hflush]
    cases hsource : s.streams.flush.2.source with
    | nil =>
      rw [Streams.read_of_nil _ hsource]
      exact .inr ⟨_, rfl, trivial⟩
    | cons x rest =>
      rw [Streams.feed_read _ more hsource]
      exact receive_feed policy more ⟨s.machine, s.streams.flush.2.read.2⟩ s.streams.flush.2.read.1

end State

/-- Under the policy to fail at the end of the input, and under any other on a longer source, a run
goes the same way until the input is exhausted. -/
theorem tracks_feed (modulus : Nat) (policy : EofPolicy) (more : Source) :
    Tracks ⟨modulus, .abort⟩ ⟨modulus, policy⟩ Error.IsExhausted (fun _ => True)
      (State.feed more) where
  keeps := fun _ _ _ => trivial
  current := fun _ _ => .inl rfl
  perform := fun i s _ => by
    cases i with
    | foreign name => exact .inl rfl
    | op o =>
      cases o with
      | right => exact .inl (State.move_onStreams (·.feed more) s modulus 1)
      | left => exact .inl (State.move_onStreams (·.feed more) s modulus (-1))
      | increment => exact .inl (State.modifyCell_onStreams (·.feed more) s (· + 1))
      | decrement => exact .inl (State.modifyCell_onStreams (·.feed more) s (· - 1))
      | write => exact .inl (State.write_feed more s)
      | read => exact State.read_feed policy more s

/-! ## The read at which the input is exhausted -/

theorem Machine.index_ne_inputExhausted (m : Machine) (x : Int) :
    m.index ≠ .error (.inputExhausted x) := fun h => by
  rcases index_error h with he | he <;> cases he

/-- Only a read that finds nothing fails for want of input, and it fails after the flush and the
read. -/
theorem Instruction.exhausted_of_perform {r : Rules} {i : Instruction} {s s' : State} {x : Int}
    (h : i.perform r s = (.failed (.inputExhausted x), s')) :
    i = .op .read ∧ s.streams.flush.1 = .normal ∧
      s.streams.flush.2.read.1.byte? = .ok none ∧ x = s'.machine.pointer ∧
      s' = ⟨s.machine, s.streams.flush.2.read.2⟩ := by
  have hfails : i.Fails r s (.inputExhausted x) := fails_of_perform (by rw [h])
  cases hfails with
  | noCell hindex => exact absurd hindex (s.machine.index_ne_inputExhausted x)
  | exhausted _ =>
    have hread : s.read r.onEof = (.failed (.inputExhausted s.machine.pointer), s') := h
    cases hf : s.streams.flush.1 with
    | failed e =>
      rw [State.read_of_flush_failed hf] at hread
      obtain ⟨f, -, -, rfl⟩ := Fault.of_outcome_failed ((Streams.flush_outcome _).symm.trans hf)
      cases hread
    | normal =>
      rw [State.read_of_flushed hf] at hread
      have hstate := State.receive_failed (congrArg Prod.fst hread)
      rw [hread] at hstate
      subst hstate
      refine ⟨rfl, rfl, ?_, rfl, rfl⟩
      unfold State.receive at hread
      cases hbyte : s.streams.flush.2.read.1.byte? with
      | error f =>
        rw [hbyte] at hread
        cases hread
      | ok b? =>
        cases b? with
        | none => rfl
        | some b =>
          rw [hbyte] at hread
          obtain ⟨hindex, -⟩ := State.modifyCell_failed (congrArg Prod.fst hread)
          exact absurd hindex (Machine.index_ne_inputExhausted _ _)

/-- There the policy is handed the same state, whatever the policy is. -/
theorem Config.ReadsNothing.read {c : Config} {s' : State} (h : c.ReadsNothing s')
    (policy : EofPolicy) : c.state.read policy = s'.receive policy (.data []) := by
  rw [State.read_of_flushed h.flushed, ← h.state]
  unfold State.receive
  rw [h.nothing]
  rfl

/-- A run that fails for want of input has come to a read that finds nothing. -/
theorem Reaches.readsNothing {r : Rules} {c : Config} {done : List Instruction} {s' : State}
    {x : Int} (h : Reaches r c done (.ended (.failed (.inputExhausted x)) s')) :
    x = s'.machine.pointer ∧ ∃ c₁, Reaches r c done (.running c₁) ∧ c₁.ReadsNothing s' := by
  cases h with
  | @ended _ c₁ _ _ hreach hs =>
    obtain ⟨i, e, hnext, ho, hperform⟩ | ⟨-, ho | ⟨e, ho, hcurrent⟩⟩ := Config.step_ended hs
    · cases ho
      obtain ⟨rfl, hflushed, hnothing, hpointer, hstate⟩ := Instruction.exhausted_of_perform hperform
      exact ⟨hpointer, c₁, hreach, hnext, hflushed, hnothing, hstate⟩
    · cases ho
    · -- the guard of a loop reads nothing
      cases ho
      exact absurd (Machine.current_eq_error_iff.1 hcurrent) (Machine.index_ne_inputExhausted _ x)

/-! ## Executions -/

section

variable {settings : Settings} {p : Program} {s s' : State} {o : Outcome}

@[simp] theorem State.feed_nil (s : State) : s.feed [] = s := by
  simp [feed, onStreams, Streams.feed]

/-- An execution that does not fail for want of input comes to the same end under every policy and
on a longer source, of which it leaves what is added. -/
theorem Ends.feed (h : Ends { settings with onEof := .abort } p s o s')
    (ho : ∀ x, o ≠ .failed (.inputExhausted x)) (policy : EofPolicy) (more : Source) :
    Ends { settings with onEof := policy } p (s.feed more) o (s'.feed more) := by
  refine h.tracked (fun modulus => tracks_feed modulus policy more) rfl trivial fun e he hlost => ?_
  cases e with
  | inputExhausted x => exact ho x he
  | _ => exact hlost

/-- An execution that fails for want of input does so at a read that is come to under every
policy. -/
theorem Ends.readsNothing {x : Int}
    (h : Ends { settings with onEof := .abort } p s (.failed (.inputExhausted x)) s') :
    x = s'.machine.pointer ∧ ∃ modulus done c,
      settings.wrap.modulus s.machine.cells.size = .ok modulus ∧ c.ReadsNothing s' ∧
        ∀ policy, Reaches ⟨modulus, policy⟩ (.start p s) done (.running c) := by
  obtain ⟨fuel, hx⟩ := ends_iff.1 h
  obtain ⟨v, -, ho, -⟩ | ⟨modulus, done, hm, hreach⟩ := execute_reaches hx
  · cases ho
  · obtain ⟨hpointer, c, hc, hnothing⟩ := hreach.readsNothing
    refine ⟨hpointer, modulus, done, c, hm, hnothing, fun policy => ?_⟩
    have hmapped := (tracks_feed modulus policy []).reaches hc trivial id
    simpa [Config.map, Progress.map] using hmapped

end

/-- Whatever is run, from any machine and streams, with the policy to fail at the end of the input:
if the run ends otherwise than for want of input, it comes to the same outcome and state under every
policy, known or not, and on a source with anything added, which is left unread. If it fails for want
of input, it names the pointer of that moment; and under every policy the run completes the same
instructions up to a read that finds nothing, and hands the policy the state in which this run
failed. -/
theorem policy_matters_only_when_exhausted (settings : Settings) (p : Program) (s s' : State)
    (o : Outcome) (h : Ends { settings with onEof := .abort } p s o s') :
    ((∀ x, o ≠ .failed (.inputExhausted x)) → ∀ policy more,
      Ends { settings with onEof := policy } p s o s' ∧
      Ends { settings with onEof := policy } p (s.feed more) o (s'.feed more)) ∧
    (∀ x, o = .failed (.inputExhausted x) → x = s'.machine.pointer ∧ ∃ modulus done c,
      settings.wrap.modulus s.machine.cells.size = .ok modulus ∧ c.ReadsNothing s' ∧
        ∀ policy, Reaches ⟨modulus, policy⟩ (.start p s) done (.running c) ∧
          c.state.read policy = s'.receive policy (.data [])) := by
  constructor
  · intro ho policy more
    have hsame := h.feed ho policy []
    rw [State.feed_nil, State.feed_nil] at hsame
    exact ⟨hsame, h.feed ho policy more⟩
  · rintro x rfl
    obtain ⟨hpointer, modulus, done, c, hm, hnothing, hreach⟩ := h.readsNothing
    exact ⟨hpointer, modulus, done, c, hm, hnothing, fun policy => ⟨hreach policy, hnothing.read policy⟩⟩

/-- The program `,[.,]` is done with two bytes, of which the second is zero, whatever comes behind
them; with one byte alone it fails at its second read, after one write. -/
theorem policy_matters_only_when_exhausted_second_read :
    let p : Program := .instr (.op .read)
      (.loop (.instr (.op .write) (.instr (.op .read) .nil)) .nil)
    let s : State := ⟨⟨#[0, 0, 0], -2⟩, { source := [.data [7], .data [0]] }⟩
    let t : State := ⟨⟨#[0, 0, 0], -2⟩, { source := [.data [7]] }⟩
    (∃ s', Ends {} p s .normal s' ∧ Ends { onEof := .zero } p (s.feed [.nothing]) .normal
      (s'.feed [.nothing]) ∧ s'.machine.cells = #[0, 0, 0] ∧ s'.streams.source = []) ∧
    ∃ t', Ends {} p t (.failed (.inputExhausted (-2))) t' ∧ -2 = t'.machine.pointer ∧
      t'.machine.cells = #[0, 7, 0] ∧ ∃ done c, c.ReadsNothing t' ∧
        Reaches ⟨256, .unchanged⟩ (.start p t) done (.running c) := by
  intro p s t
  have hs : Ends {} p s .normal _ := ends_iff.2 ⟨10, rfl⟩
  have ht : Ends {} p t (.failed (.inputExhausted (-2))) _ := ends_iff.2 ⟨10, rfl⟩
  refine ⟨⟨_, hs, ?_, rfl, rfl⟩, _, ht, ?_⟩
  · exact ((policy_matters_only_when_exhausted {} p s _ _ hs).1 nofun .zero [.nothing]).2
  · obtain ⟨hpointer, modulus, done, c, hm, hnothing, hreach⟩ :=
      (policy_matters_only_when_exhausted {} p t _ _ ht).2 (-2) rfl
    cases hm
    exact ⟨hpointer, rfl, done, c, hnothing, (hreach .unchanged).1⟩

end ByteTape
