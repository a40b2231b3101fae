/-
What is done with streams, call by call. A call is listed with what came of it: the fault that the
sink raised, if it raised one, or what the source brought. `st.Calls calls st'` says that these
calls, one after another, take the streams from `st` to `st'`; so every fault among them comes out
of the plan of the sink or out of the source, and the events alone tell how often the sink was
called.
-/
import ByteTape.Proofs.Streams

namespace ByteTape

/-- A call on a stream, with what came of it. -/
inductive Call where
  | write (b : UInt8) (fault? : Option Fault)
  | flush (fault? : Option Fault)
  | read (r : ReadResult)

/-- The event that a call leaves. -/
def Call.event : Call → Event
  | .write b fault? => .write b fault?.isSome
  | .flush fault? => .flush fault?.isSome
  | .read r => .read r

namespace Streams

/-- The calls, made one after another, lead from the first streams to the second. -/
inductive Calls (st : Streams) : List Call → Streams → Prop
  | none : Calls st [] st
  | write {calls : List Call} {st' : Streams} (b : UInt8) :
      Calls st calls st' → Calls st (calls ++ [.write b st'.nextWriteFault]) (st'.write b).2
  | flush {calls : List Call} {st' : Streams} :
      Calls st calls st' → Calls st (calls ++ [.flush st'.nextFlushFault]) st'.flush.2
  | read {calls : List Call} {st' : Streams} :
      Calls st calls st' → Calls st (calls ++ [.read st'.read.1]) st'.read.2

end Streams

namespace Streams.Calls

variable {st st' : Streams} {calls : List Call}

theorem append {calls' : List Call} {st'' : Streams} (h : st.Calls calls st')
    (h' : st'.Calls calls' st'') : st.Calls (calls ++ calls') st'' := by
  induction h' with
  | none => simpa using h
  | write b _ ih =>
    rw [← List.append_assoc]
    exact ih.write b
  | flush _ ih =>
    rw [← List.append_assoc]
    exact ih.flush
  | read _ ih =>
    rw [← List.append_assoc]
    exact ih.read

/-- The calls leave their events, in order, and nothing else does. -/
theorem events (h : st.Calls calls st') :
    st'.events.toList = st.events.toList ++ calls.map Call.event := by
  induction h with
  | none => simp
  | write | flush | read => simp [*, Call.event]

/-- Calls add to the events, and what they write is stored unless the sink fails. -/
theorem since (h : st.Calls calls st') : ∃ new, Since st new st' := by
  induction h with
  | none => exact ⟨[], .refl st⟩
  | write b _ ih =>
    obtain ⟨new, hnew⟩ := ih
    obtain ⟨e, hwrite⟩ := hnew.write b
    exact ⟨new ++ [e], hwrite⟩
  | flush _ ih =>
    obtain ⟨new, hnew⟩ := ih
    obtain ⟨e, hflush⟩ := hnew.flush
    exact ⟨new ++ [e], hflush⟩
  | read _ ih =>
    obtain ⟨new, hnew⟩ := ih
    obtain ⟨e, hread⟩ := hnew.read
    exact ⟨new ++ [e], hread⟩

/-! ## Where faults come from -/

theorem plan (h : st.Calls calls st') :
    st'.sink.writeFault = st.sink.writeFault ∧ st'.sink.flushFault = st.sink.flushFault := by
  induction h with
  | none => exact ⟨rfl, rfl⟩
  | write _ _ ih | flush _ ih | read _ ih => simpa using ih

/-- The sink was written to. -/
def isWrite : Event → Bool
  | .write _ _ => true
  | .flush _ | .read _ | .release _ => false

/-- The sink was flushed. -/
def isFlush : Event → Bool
  | .flush _ => true
  | .write _ _ | .read _ | .release _ => false

theorem sink_eq (h : st.Calls calls st') :
    st'.sink = { st.sink with
      stored := st'.sink.stored
      writes := st.sink.writes + (calls.map Call.event).countP isWrite
      flushes := st.sink.flushes + (calls.map Call.event).countP isFlush } := by
  induction h with
  | none => simp
  | write b _ ih =>
    rw [write_sink, ih]
    simp [Call.event, isWrite, isFlush, Nat.add_assoc]
  | flush _ ih =>
    rw [flush_sink, ih]
    simp [Call.event, isWrite, isFlush, Nat.add_assoc]
  | read _ ih =>
    rw [read_sink, ih]
    simp [Call.event, isWrite, isFlush]

/-- Of two sinks that have come from one by calls, what they have stored and the events tell whether
they are the same. -/
theorem sink_unique {calls' : List Call} {st₁ st₂ : Streams} (h₁ : st.Calls calls st₁)
    (h₂ : st.Calls calls' st₂) (hevents : st₁.events = st₂.events)
    (hstored : st₁.sink.stored = st₂.sink.stored) : st₁.sink = st₂.sink := by
  have hcalls : calls.map Call.event = calls'.map Call.event := by
    have h := h₁.events
    rw [hevents, h₂.events] at h
    exact (List.append_cancel_left h).symm
  rw [h₁.sink_eq, h₂.sink_eq, hcalls, hstored]

end Streams.Calls

end ByteTape
