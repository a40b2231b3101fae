/-
What the operations on the streams do, each said once as a whole and then part by part, and what
that makes of a sink over time. A write or a flush leaves the source alone and adds one event. What
else comes of it hangs on the fault that the sink has for this call: a fault of the system or a
value failure is tolerated, and leaves a warning; any other is the outcome. `Since` adds up a
stretch of events: what a sink has stored is what was written to it, less the writes it has failed.
-/
import ByteTape.Streams
import Mathlib.Tactic

namespace ByteTape

/-! ## Faults that are tolerated -/

/-- A fault of the system or a value failure. -/
def Fault.Ordinary (f : Fault) : Prop :=
  .system ∈ f.kind.families ∨ .value ∈ f.kind.families

theorem Fault.tolerated_iff {f : Fault} : f.tolerated = true ↔ f.Ordinary := by
  unfold Fault.tolerated FaultKind.tolerated Fault.Ordinary
  rw [List.any_eq_true]
  constructor
  · rintro ⟨x, hx, h⟩
    rw [Bool.or_eq_true, beq_iff_eq, beq_iff_eq] at h
    rcases h with rfl | rfl
    · exact .inl hx
    · exact .inr hx
  · rintro (h | h)
    · exact ⟨_, h, rfl⟩
    · exact ⟨_, h, rfl⟩

instance (f : Fault) : Decidable f.Ordinary := inferInstanceAs (Decidable (_ ∨ _))

/-- What a call on the sink comes to that meets this fault, or none. -/
def Fault.outcome : Option Fault → Outcome
  | none => .normal
  | some f => if f.tolerated then .normal else .failed (.fault f)

/-- The warning for what a call on the sink has raised: for a fault of the system or a value failure
there is one, which says what the fault says, and for anything else there is none. -/
def Fault.warning? (warn : String → LogRecord) : Option Fault → Option LogRecord
  | some f => if f.Ordinary then some (warn f.message) else none
  | none => none

theorem Fault.outcome_of_ordinary {f? : Option Fault} (h : ∀ f, f? = some f → f.Ordinary) :
    Fault.outcome f? = .normal := by
  cases f? with
  | none => rfl
  | some f => exact if_pos (Fault.tolerated_iff.2 (h f rfl))

theorem Fault.outcome_of_not_ordinary {f : Fault} (h : ¬ f.Ordinary) :
    Fault.outcome (some f) = .failed (.fault f) :=
  if_neg (mt Fault.tolerated_iff.1 h)

theorem Fault.ordinary_of_outcome {f? : Option Fault} (h : Fault.outcome f? = .normal) :
    ∀ f, f? = some f → f.Ordinary := by
  rintro f rfl
  by_contra hf
  rw [outcome_of_not_ordinary hf] at h
  cases h

theorem Fault.of_outcome_failed {f? : Option Fault} {e : Error}
    (h : Fault.outcome f? = .failed e) : ∃ f, f? = some f ∧ ¬ f.Ordinary ∧ e = .fault f := by
  by_cases hf : ∀ f, f? = some f → f.Ordinary
  · rw [outcome_of_ordinary hf] at h
    cases h
  · push Not at hf
    obtain ⟨f, rfl, hf⟩ := hf
    rw [outcome_of_not_ordinary hf] at h
    cases h
    exact ⟨f, rfl, hf, rfl⟩

/-- Every fault of the sink is one of the system or a value failure. -/
structure Sink.Ordinary (k : Sink) : Prop where
  write : ∀ n f, k.writeFault n = some f → f.Ordinary
  flush : ∀ n f, k.flushFault n = some f → f.Ordinary

namespace Streams

variable (st : Streams) (b : UInt8)

/-! ## Writing -/

/-- The fault that the sink has for the next write. -/
def nextWriteFault : Option Fault := st.sink.writeFault st.sink.writes

theorem write_eq :
    st.write b = (Fault.outcome st.nextWriteFault,
      { sink :=
          { st.sink with
            stored := if st.nextWriteFault.isSome then st.sink.stored else st.sink.stored.push b
            writes := st.sink.writes + 1 }
        source := st.source
        events := st.events.push (.write b st.nextWriteFault.isSome)
        log := st.log ++ (Fault.warning? (.writeFailed b) st.nextWriteFault).toArray }) := by
  unfold write nextWriteFault
  dsimp only
  cases st.sink.writeFault st.sink.writes with
  | none => simp [Fault.outcome, Fault.warning?]
  | some f => cases hf : f.tolerated <;> simp [Fault.outcome, Fault.warning?, ← Fault.tolerated_iff, hf]

theorem write_outcome : (st.write b).1 = Fault.outcome st.nextWriteFault := by
  rw [write_eq]

@[simp] theorem write_source : (st.write b).2.source = st.source := by
  rw [write_eq]

@[simp] theorem write_events :
    (st.write b).2.events = st.events.push (.write b st.nextWriteFault.isSome) := by
  rw [write_eq]

@[simp] theorem write_sink :
    (st.write b).2.sink =
      { st.sink with
        stored := if st.nextWriteFault.isSome then st.sink.stored else st.sink.stored.push b
        writes := st.sink.writes + 1 } := by
  rw [write_eq]

variable {st}

theorem write_normal (h : st.sink.Ordinary) : (st.write b).1 = .normal := by
  rw [write_eq]
  exact Fault.outcome_of_ordinary (h.write _)

theorem write_ordinary (h : st.sink.Ordinary) : (st.write b).2.sink.Ordinary := by
  rw [write_sink]
  exact ⟨h.write, h.flush⟩

variable (st)

/-! ## Flushing -/

/-- The fault that the sink has for the next flush. -/
def nextFlushFault : Option Fault := st.sink.flushFault st.sink.flushes

theorem flush_eq :
    st.flush = (Fault.outcome st.nextFlushFault,
      { sink := { st.sink with flushes := st.sink.flushes + 1 }
        source := st.source
        events := st.events.push (.flush st.nextFlushFault.isSome)
        log := st.log ++ (Fault.warning? .flushFailed st.nextFlushFault).toArray }) := by
  unfold flush nextFlushFault
  dsimp only
  cases st.sink.flushFault st.sink.flushes with
  | none => simp [Fault.outcome, Fault.warning?]
  | some f => cases hf : f.tolerated <;> simp [Fault.outcome, Fault.warning?, ← Fault.tolerated_iff, hf]

theorem flush_outcome : st.flush.1 = Fault.outcome st.nextFlushFault := by
  rw [flush_eq]

@[simp] theorem flush_source : st.flush.2.source = st.source := by
  rw [flush_eq]

@[simp] theorem flush_events :
    st.flush.2.events = st.events.push (.flush st.nextFlushFault.isSome) := by
  rw [flush_eq]

@[simp] theorem flush_sink :
    st.flush.2.sink = { st.sink with flushes := st.sink.flushes + 1 } := by
  rw [flush_eq]

variable {st}

theorem flush_normal (h : st.sink.Ordinary) : st.flush.1 = .normal := by
  rw [flush_eq]
  exact Fault.outcome_of_ordinary (h.flush _)

theorem flush_ordinary (h : st.sink.Ordinary) : st.flush.2.sink.Ordinary := by
  rw [flush_sink]
  exact ⟨h.write, h.flush⟩

variable (st)

/-! ## Reading -/

theorem read_eq :
    st.read = (st.source.headD (.data []),
      { st with
        source := st.source.tail
        events := st.events.push (.read (st.source.headD (.data []))) }) := by
  unfold read
  dsimp only
  cases st.source <;> rfl

theorem read_result : st.read.1 = st.source.headD (.data []) := by
  rw [read_eq]

theorem read_source : st.read.2.source = st.source.tail := by
  rw [read_eq]

@[simp] theorem read_events : st.read.2.events = st.events.push (.read st.read.1) := by
  rw [read_eq]

@[simp] theorem read_sink : st.read.2.sink = st.sink := by
  rw [read_eq]

/-! ## Feeding -/

variable (more : Source)

theorem feed_write : (st.feed more).write b = ((st.write b).1, (st.write b).2.feed more) := by
  rw [write_eq, write_eq]
  rfl

theorem feed_flush : (st.feed more).flush = (st.flush.1, st.flush.2.feed more) := by
  rw [flush_eq, flush_eq]
  rfl

/-- What is fed is not read as long as there is something in front of it. -/
theorem feed_read {x : ReadResult} {rest : Source} (h : st.source = x :: rest) :
    (st.feed more).read = (st.read.1, st.read.2.feed more) := by
  have hfed : (st.feed more).source = x :: (rest ++ more) := by simp only [feed, h, List.cons_append]
  rw [read_eq, read_eq, hfed]
  simp only [h, feed, List.headD_cons, List.tail_cons]

/-- Past the end of the source a read brings no bytes. -/
theorem read_of_nil (h : st.source = []) : st.read.1 = .data [] := by
  rw [read_result, h]
  rfl

end Streams

namespace Streams

/-! ## One sink and one log -/

/-- Streams that may differ in what is left to read and in what has happened, but not in their sinks
and their logs. -/
structure SameOutput (st st' : Streams) : Prop where
  sink : st'.sink = st.sink
  log : st'.log = st.log

namespace SameOutput

variable {st st' : Streams}

theorem nextWriteFault (h : st.SameOutput st') : st'.nextWriteFault = st.nextWriteFault := by
  rw [Streams.nextWriteFault, Streams.nextWriteFault, h.sink]

theorem nextFlushFault (h : st.SameOutput st') : st'.nextFlushFault = st.nextFlushFault := by
  rw [Streams.nextFlushFault, Streams.nextFlushFault, h.sink]

theorem write (h : st.SameOutput st') (b : UInt8) :
    (st.write b).1 = (st'.write b).1 ∧ (st.write b).2.SameOutput (st'.write b).2 := by
  rw [write_eq, write_eq, h.nextWriteFault]
  exact ⟨rfl, by rw [h.sink], by rw [h.log]⟩

theorem flush (h : st.SameOutput st') :
    st.flush.1 = st'.flush.1 ∧ st.flush.2.SameOutput st'.flush.2 := by
  rw [flush_eq, flush_eq, h.nextFlushFault]
  exact ⟨rfl, by rw [h.sink], by rw [h.log]⟩

theorem read (h : st.SameOutput st') : st.read.2.SameOutput st'.read.2 := by
  rw [read_eq, read_eq]
  exact ⟨h.sink, h.log⟩

end SameOutput

end Streams

theorem ReadResult.eq_fault_of_byte? {x : ReadResult} {f : Fault} (h : x.byte? = .error f) :
    x = .fault f := by
  cases x with
  | data bytes => cases h
  | nothing => cases h
  | fault f' => cases h; rfl

/-! ## What a sink stores -/

/-- Of bytes that are written from now on, those whose write the sink does not fail. -/
def Sink.accepted (k : Sink) (bytes : List UInt8) : List UInt8 :=
  ((bytes.zipIdx k.writes).filter fun c => (k.writeFault c.2).isNone).map Prod.fst

/-- The bytes written in a stretch of events, whether the sink stored them or not. -/
def written (events : List Event) : List UInt8 :=
  events.filterMap fun
    | .write b _ => some b
    | .flush _ | .read _ | .release _ => none

@[simp] theorem written_append (xs ys : List Event) : written (xs ++ ys) = written xs ++ written ys :=
  List.filterMap_append

theorem Sink.accepted_append (k : Sink) (bytes : List UInt8) (b : UInt8) :
    k.accepted (bytes ++ [b]) =
      k.accepted bytes ++ if (k.writeFault (k.writes + bytes.length)).isSome then [] else [b] := by
  unfold Sink.accepted
  rw [List.zipIdx_append, List.filter_append, List.map_append]
  congr 1
  cases h : k.writeFault (k.writes + bytes.length) <;> simp [h]

/-- After the events `new`, the streams `st` hold what they held at `st₀`, and of the bytes written
since those that the sink took. -/
structure Since (st₀ : Streams) (new : List Event) (st : Streams) : Prop where
  events : st.events.toList = st₀.events.toList ++ new
  stored : st.sink.stored.toList = st₀.sink.stored.toList ++ st₀.sink.accepted (written new)
  writes : st.sink.writes = st₀.sink.writes + (written new).length
  plan : st.sink.writeFault = st₀.sink.writeFault

namespace Since

variable {st₀ st : Streams} {new : List Event}

theorem refl (st : Streams) : Since st [] st :=
  ⟨by simp, by simp [written, Sink.accepted], rfl, rfl⟩

theorem write (h : Since st₀ new st) (b : UInt8) :
    ∃ e, Since st₀ (new ++ [e]) (st.write b).2 := by
  have hfault : st.nextWriteFault =
      st₀.sink.writeFault (st₀.sink.writes + (written new).length) := by
    unfold Streams.nextWriteFault
    rw [h.plan, h.writes]
  refine ⟨.write b st.nextWriteFault.isSome, by simp [h.events], ?_, ?_, by simp [h.plan]⟩
  · have hwritten : written (new ++ [.write b st.nextWriteFault.isSome]) = written new ++ [b] := by
      simp [written]
    rw [hwritten, Sink.accepted_append, ← hfault, ← List.append_assoc, ← h.stored]
    cases hf : st.nextWriteFault <;> simp [hf]
  · simp [h.writes, written, Nat.add_assoc]

theorem flush (h : Since st₀ new st) : ∃ e, Since st₀ (new ++ [e]) st.flush.2 := by
  refine ⟨.flush st.nextFlushFault.isSome, by simp [h.events], ?_, ?_, by simp [h.plan]⟩
  · simp [h.stored, written]
  · simp [h.writes, written]

theorem read (h : Since st₀ new st) : ∃ e, Since st₀ (new ++ [e]) st.read.2 := by
  refine ⟨.read st.read.1, by simp [h.events], ?_, ?_, by simp [h.plan]⟩
  · simp [h.stored, written]
  · simp [h.writes, written]

end Since

end ByteTape
