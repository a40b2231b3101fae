/-
What a run leaves in the log. Every call on the sink in which a fault is raised that is tolerated leaves
one warning, which says what was called and what the fault says, and nothing else leaves a record. So
the log of a run is read off its calls, in their order. Interpreting a source puts the records of
reading it in front, and the warning of its last flush behind.
-/
import ByteTape.Proofs.Execution.Blocks
import ByteTape.Proofs.Program.Loading

namespace ByteTape

/-! ## Warnings -/

theorem Fault.warning?_eq_some_iff {warn : String → LogRecord} {fault? : Option Fault}
    {record : LogRecord} : Fault.warning? warn fault? = some record ↔
      ∃ f, fault? = some f ∧ f.Ordinary ∧ record = warn f.message := by
  cases fault? with
  | none => simp [warning?]
  | some f => simp [warning?, eq_comm]

/-- The warning that a call leaves, if it leaves one. -/
def Call.warning? : Call → Option LogRecord
  | .write b fault? => Fault.warning? (.writeFailed b) fault?
  | .flush fault? => Fault.warning? .flushFailed fault?
  | .read _ => none

theorem Call.warning?_eq_some_iff (c : Call) (record : LogRecord) : c.warning? = some record ↔
    (∃ b f, c = .write b (some f) ∧ f.Ordinary ∧ record = .writeFailed b f.message) ∨
    ∃ f, c = .flush (some f) ∧ f.Ordinary ∧ record = .flushFailed f.message := by
  cases c with
  | write b fault? => simp [warning?, Fault.warning?_eq_some_iff]
  | flush fault? => simp [warning?, Fault.warning?_eq_some_iff]
  | read x => simp [warning?]

/-- The warnings that calls leave, in their order. -/
def Call.warnings (calls : List Call) : List LogRecord := calls.filterMap Call.warning?

theorem Call.warnings_append (calls : List Call) (c : Call) :
    Call.warnings (calls ++ [c]) = Call.warnings calls ++ c.warning?.toList := by
  unfold Call.warnings
  rw [List.filterMap_append]
  cases h : c.warning? <;> simp [h]

namespace Streams

/-- These calls lead from the first streams to the second: what has happened on them is the calls, one
by one, and what has been logged is the warnings that they leave. -/
structure Recorded (st : Streams) (calls : List Call) (st' : Streams) : Prop where
  events : st'.events.toList = st.events.toList ++ calls.map Call.event
  log : st'.log.toList = st.log.toList ++ Call.warnings calls
  calls : st.Calls calls st'

namespace Calls

variable {st st' : Streams} {calls : List Call}

/-- Calls leave their warnings, in order, and nothing else does. -/
theorem log (h : st.Calls calls st') :
    st'.log.toList = st.log.toList ++ Call.warnings calls := by
  induction h with
  | none => simp [Call.warnings]
  | write b _ ih =>
    rw [write_eq, Call.warnings_append, ← List.append_assoc, ← ih, Array.toList_append,
      Option.toList_toArray]
    rfl
  | flush _ ih =>
    rw [flush_eq, Call.warnings_append, ← List.append_assoc, ← ih, Array.toList_append,
      Option.toList_toArray]
    rfl
  | read _ ih =>
    rw [read_eq, Call.warnings_append, ← List.append_assoc, ← ih]
    exact (List.append_nil _).symm

theorem recorded (h : st.Calls calls st') : st.Recorded calls st' := ⟨h.events, h.log, h⟩

end Calls

end Streams

/-! ## Interpreting a source -/

/-- What interpreting a program has recorded: the calls of its run and one flush, from streams on which
nothing but the records of reading the source has been added. -/
theorem interpret_recorded {fuel : Nat} {settings : Settings} {source : List UInt8}
    {st st' : Streams} {ts : List Token} {p : Program} {o : Outcome}
    (hlex : Token.lex settings.strict source = .ok ts) (hp : Program.ofTokens ts = .ok p)
    (h : interpret fuel settings source st = some (o, st')) :
    ∃ o₁ s₁, execute fuel settings p ⟨.fresh Machine.defaultSize, st.recordLoad settings source⟩ =
        some (o₁, s₁) ∧
      let calls := executionCalls fuel settings p
        ⟨.fresh Machine.defaultSize, st.recordLoad settings source⟩
      let last := Call.flush s₁.streams.nextFlushFault
      st'.events.toList = st.events.toList ++ calls.map Call.event ++ [last.event] ∧
      st'.log.toList = st.log.toList ++
        [.lexed ts.length source.length settings.strict, .parsed p.length] ++
        Call.warnings calls ++ last.warning?.toList ∧
      o₁.Concludes calls ∧
      (∀ f, s₁.streams.nextFlushFault = some f → ¬ f.Ordinary → o = .failed (.fault f)) ∧
      ((∀ f, s₁.streams.nextFlushFault = some f → f.Ordinary) → o = o₁) := by
  have hload := Program.load_of_lex hlex
  rw [Program.loadTokens_of_ok hp] at hload
  have hrecords : (st.recordLoad settings source).log.toList = st.log.toList ++
      [.lexed ts.length source.length settings.strict, .parsed p.length] := by
    simp [Streams.recordLoad, hload]
  obtain ⟨o₁, s₁, hx, rfl, hraised, hquiet⟩ := interpret_program (by rw [hload]) h
  have hlast := (execute_calls hx).flush.recorded
  refine ⟨o₁, s₁, hx, ?_, ?_, execute_concludes hx, hraised, hquiet⟩
  · rw [hlast.events, List.map_append, ← List.append_assoc]
    rfl
  · rw [hlast.log, hrecords, Call.warnings_append, ← List.append_assoc]

/-- Every fault that is tolerated leaves one warning, in the order of the calls, and nothing else is
logged, whatever the program, the machine, the settings, the source and the sink.

At every stage of a run, and so in a run that never ends, as at the end of an execution, what has been
added to the log is the warnings of the calls made so far, and any other fault has ended the run. A
call leaves a warning if a fault of the system or a value failure is raised in it, one for a write or
one for a flush, and none otherwise.

Interpreting a source that cannot be cut into tokens logs nothing, and one whose brackets do not match
logs the record of the lexer. Otherwise the records of the lexer and the parser are followed by the
warnings of the run, and at the end, whatever the run has come to, by that of the last flush. -/
theorem tolerated_faults_are_logged :
    (∀ (r : Rules) (c : Config) (n : Nat),
      c.state.streams.Recorded (c.callsWithin r n)
        ((Progress.running c).advance r n).state.streams ∧
      ((Progress.running c).advance r n).Concludes (c.callsWithin r n)) ∧
    (∀ (fuel : Nat) (settings : Settings) (p : Program) (s s' : State) (o : Outcome),
      execute fuel settings p s = some (o, s') →
        s.streams.Recorded (executionCalls fuel settings p s) s'.streams ∧
        o.Concludes (executionCalls fuel settings p s)) ∧
    (∀ (c : Call) (record : LogRecord), c.warning? = some record ↔
      (∃ b f, c = .write b (some f) ∧ f.Ordinary ∧ record = .writeFailed b f.message) ∨
      ∃ f, c = .flush (some f) ∧ f.Ordinary ∧ record = .flushFailed f.message) ∧
    (∀ (b : UInt8) (reason : String),
      (LogRecord.writeFailed b reason).level = .warning ∧
      (LogRecord.writeFailed b reason).message = s!"Failed to write byte {b.toNat}: {reason}" ∧
      (LogRecord.flushFailed reason).level = .warning ∧
      (LogRecord.flushFailed reason).message = s!"Failed to flush output: {reason}") ∧
    (∀ (fuel : Nat) (settings : Settings) (source : List UInt8) (st st' : Streams) (o : Outcome),
      interpret fuel settings source st = some (o, st') →
        match Token.lex settings.strict source with
        | .error e => o = .failed e ∧ st'.events = st.events ∧ st'.log = st.log
        | .ok ts => match Program.ofTokens ts with
          | .error e => o = .failed e ∧ st'.events = st.events ∧
              st'.log = st.log.push (.lexed ts.length source.length settings.strict)
          | .ok p => ∃ o₁ s₁, execute fuel settings p
                ⟨.fresh Machine.defaultSize, st.recordLoad settings source⟩ = some (o₁, s₁) ∧
              let calls := executionCalls fuel settings p
                ⟨.fresh Machine.defaultSize, st.recordLoad settings source⟩
              let last := Call.flush s₁.streams.nextFlushFault
              st'.events.toList = st.events.toList ++ calls.map Call.event ++ [last.event] ∧
              st'.log.toList = st.log.toList ++
                [.lexed ts.length source.length settings.strict, .parsed p.length] ++
                Call.warnings calls ++ last.warning?.toList ∧
              o₁.Concludes calls ∧
              (∀ f, s₁.streams.nextFlushFault = some f → ¬ f.Ordinary → o = .failed (.fault f)) ∧
              ((∀ f, s₁.streams.nextFlushFault = some f → f.Ordinary) → o = o₁)) := by
  refine ⟨fun r c n => ⟨(c.advance_calls r n).recorded, c.advance_concludes r n .nil⟩,
    fun fuel settings p s s' o h => ⟨(execute_calls h).recorded, execute_concludes h⟩,
    Call.warning?_eq_some_iff, fun b reason => ⟨rfl, rfl, rfl, rfl⟩, fun fuel settings source st st' o h => ?_⟩
  · split
    · rename_i e hlex
      have hload := Program.load_of_lex_error hlex
      rw [interpret_of_load_error (by rw [hload])] at h
      cases h
      exact ⟨rfl, rfl, by simp [Streams.recordLoad, hload]⟩
    · rename_i ts hlex
      split
      · rename_i e hts
        have hload := Program.load_of_lex hlex
        rw [Program.loadTokens_of_error hts] at hload
        rw [interpret_of_load_error (by rw [hload])] at h
        cases h
        exact ⟨rfl, rfl, by simp [Streams.recordLoad, hload]⟩
      · rename_i p hp
        exact interpret_recorded hlex hp h

/-- On a sink that is closed when it is flushed, full at the first write and broken at the second one,
`.,.` leaves a warning for the write and one for the flush before its read, and the second write ends
it without one. Interpreting `,` without input on this sink logs what was read, and then one warning
for the flush before the read that finds nothing, and one for the flush at the end. -/
theorem tolerated_faults_are_logged_broken_sink :
    let sink : Sink :=
      { writeFault := fun n => some ⟨if n = 0 then .system else .runtime, "full"⟩
        flushFault := fun _ => some ⟨.value, "closed"⟩ }
    let p : Program := .instr (.op .write) (.instr (.op .read) (.instr (.op .write) .nil))
    let s : State := ⟨.fresh 2, { sink, source := [.data [0x61]] }⟩
    (∃ s', execute 3 {} p s = some (.failed (.fault ⟨.runtime, "full"⟩), s') ∧
      s'.streams.log.toList = [.writeFailed 0 "full", .flushFailed "closed"] ∧
      BrokenBlocks ⟨.runtime, "full"⟩ (executionCalls 3 {} p s)) ∧
    ∃ st', interpret 1 {} [0x2c] { sink } = some (.failed (.inputExhausted 0), st') ∧
      st'.log.toList =
        [.lexed 1 1 false, .parsed 1, .flushFailed "closed", .flushFailed "closed"] := by
  intro sink p s
  obtain ⟨-, hexecute, -, -, hinterpret⟩ := tolerated_faults_are_logged
  obtain ⟨hrecorded, hconcludes⟩ := hexecute 3 {} p s _ _ rfl
  obtain ⟨o₁, s₁, hx, -, hlog, -⟩ := hinterpret 1 {} [0x2c] { sink } _ _ rfl
  cases hx
  exact ⟨⟨_, rfl, hrecorded.log, hconcludes⟩, _, rfl, hlog⟩

end ByteTape
