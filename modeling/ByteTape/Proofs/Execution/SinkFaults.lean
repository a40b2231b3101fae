/-
Faults of the sink that are tolerated do not touch the computation. Two runs that differ only in
their sinks, each with tolerated faults alone, stay in step: the machine, what is left to read, and
the events but for the marks of failed calls are the same at every moment, and so are the ends.
Apart from that, what a sink has stored at the end is what was written, less the writes it failed.
-/
import ByteTape.Proofs.Execution.Calls
import ByteTape.Proofs.Interpret

namespace ByteTape

/-! ## Streams alike but for their sinks -/

/-- An event without the mark of a call on the sink that failed. -/
def Event.unmarked : Event → Event
  | .write b _ => .write b false
  | .flush _ => .flush false
  | .read r => .read r
  | .release failed => .release failed

/-- The events so far, without those marks. -/
def Streams.unmarked (st : Streams) : List Event := st.events.toList.map Event.unmarked

@[simp] theorem Streams.unmarked_write (st : Streams) (b : UInt8) :
    (st.write b).2.unmarked = st.unmarked ++ [.write b false] := by
  simp [unmarked, Event.unmarked]

@[simp] theorem Streams.unmarked_flush (st : Streams) :
    st.flush.2.unmarked = st.unmarked ++ [.flush false] := by
  simp [unmarked, Event.unmarked]

@[simp] theorem Streams.unmarked_read (st : Streams) :
    st.read.2.unmarked = st.unmarked ++ [.read st.read.1] := by
  simp [unmarked, Event.unmarked]

/-- Two streams with the same source and the same events but for marks, each with a sink whose
faults are tolerated. -/
structure Streams.Alike (st st' : Streams) : Prop where
  source : st.source = st'.source
  events : st.unmarked = st'.unmarked
  left : st.sink.Ordinary
  right : st'.sink.Ordinary

namespace Streams.Alike

variable {st st' : Streams}

theorem write (h : st.Alike st') (b : UInt8) :
    (st.write b).1 = .normal ∧ (st'.write b).1 = .normal ∧ (st.write b).2.Alike (st'.write b).2 := by
  have halike : (st.write b).2.Alike (st'.write b).2 :=
    ⟨by simp [h.source], by simp [h.events], write_ordinary b h.left, write_ordinary b h.right⟩
  exact ⟨write_normal b h.left, write_normal b h.right, halike⟩

theorem flush (h : st.Alike st') :
    st.flush.1 = .normal ∧ st'.flush.1 = .normal ∧ st.flush.2.Alike st'.flush.2 := by
  have halike : st.flush.2.Alike st'.flush.2 :=
    ⟨by simp [h.source], by simp [h.events], flush_ordinary h.left, flush_ordinary h.right⟩
  exact ⟨flush_normal h.left, flush_normal h.right, halike⟩

theorem read (h : st.Alike st') : st.read.1 = st'.read.1 ∧ st.read.2.Alike st'.read.2 := by
  have hresult : st.read.1 = st'.read.1 := by rw [read_result, read_result, h.source]
  have halike : st.read.2.Alike st'.read.2 :=
    ⟨by rw [read_source, read_source, h.source], by simp [h.events, hresult],
      by simpa using h.left, by simpa using h.right⟩
  exact ⟨hresult, halike⟩

end Streams.Alike

/-! ## Instructions in step -/

/-- Two states with one machine and streams alike but for their sinks. -/
structure State.Alike (s t : State) : Prop where
  machine : s.machine = t.machine
  streams : s.streams.Alike t.streams

theorem Streams.inStep_alike : Streams.InStep Streams.Alike where
  write := fun b st st' h => by
    obtain ⟨hs, ht, hst⟩ := h.write b
    exact ⟨hs.trans ht.symm, hst⟩
  flush := fun st st' h => by
    obtain ⟨hs, ht, hst⟩ := h.flush
    exact ⟨hs.trans ht.symm, hst⟩
  read := fun st st' h => by
    obtain ⟨hresult, hst⟩ := h.read
    exact ⟨by rw [hresult], hst⟩

/-- Runs in states alike but for their sinks stay in step. -/
theorem inStep_alike (r : Rules) : InStep r r Eq State.Alike := by
  have hbeside : State.Alike = State.Beside Streams.Alike := by
    ext s t
    exact ⟨fun h => ⟨h.machine, h.streams⟩, fun h => ⟨h.machine, h.streams⟩⟩
  rw [hbeside]
  exact Streams.inStep_alike.inStep r

/-! ## What has been stored -/

theorem interpret_since {fuel : Nat} {settings : Settings} {source : List UInt8} {st st' : Streams}
    {o : Outcome} (h : interpret fuel settings source st = some (o, st')) :
    ∃ new, Since st new st' := by
  -- the records of reading the source are no event
  have hstart : ∀ {new st''}, Since (st.recordLoad settings source) new st'' → Since st new st'' :=
    fun h => ⟨h.events, h.stored, h.writes, h.plan⟩
  cases hload : (Program.load settings.strict source).result with
  | error e =>
    rw [interpret_of_load_error hload] at h
    cases h
    exact ⟨[], hstart (.refl _)⟩
  | ok p =>
    obtain ⟨o₁, s₁, hx, rfl, -⟩ := interpret_program hload h
    obtain ⟨new, hnew⟩ := (execute_calls hx).flush.since
    exact ⟨new, hstart hnew⟩

/-! ## Runs that differ in their sinks -/

/-- What an execution comes to, the sink and the log aside: the outcome, the machine, what is left
to read, and the events but for the marks of failed calls. -/
def seen (x : Outcome × State) : Outcome × Machine × Source × List Event :=
  (x.1, x.2.machine, x.2.streams.source, x.2.streams.unmarked)

/-- What interpreting a source comes to, the sink and the log aside. -/
def seenOutside (x : Outcome × Streams) : Outcome × Source × List Event :=
  (x.1, x.2.source, x.2.unmarked)

/-- What goes together under one function of each is the same under these. -/
theorem map_eq_of_rel {α β γ : Type} {Q : α → β → Prop} {f : α → γ} {g : β → γ}
    (hfg : ∀ a b, Q a b → f a = g b) {x : Option α} {y : Option β} (h : Option.Rel Q x y) :
    x.map f = y.map g := by
  cases h with
  | some hab => exact congrArg some (hfg _ _ hab)
  | none => rfl

section

variable {k k' : Sink} (hk : k.Ordinary) (hk' : k'.Ordinary)
include hk hk'

theorem alike_of_sinks (st : Streams) (log log' : Array LogRecord) :
    Streams.Alike { st with sink := k, log := log } { st with sink := k', log := log' } :=
  ⟨rfl, rfl, hk, hk'⟩

theorem execute_paired_of_sinks (fuel : Nat) (settings : Settings) (p : Program) (m : Machine)
    (st : Streams) :
    Option.Rel (Paired Eq State.Alike) (execute fuel settings p ⟨m, { st with sink := k }⟩)
      (execute fuel settings p ⟨m, { st with sink := k' }⟩) :=
  InStep.execute inStep_alike fuel settings p ⟨rfl, alike_of_sinks hk hk' st _ _⟩ rfl

theorem execute_seen_of_sinks (fuel : Nat) (settings : Settings) (p : Program) (m : Machine)
    (st : Streams) :
    (execute fuel settings p ⟨m, { st with sink := k }⟩).map seen =
      (execute fuel settings p ⟨m, { st with sink := k' }⟩).map seen := by
  refine map_eq_of_rel ?_ (execute_paired_of_sinks hk hk' fuel settings p m st)
  intro x y h
  obtain ⟨houtcome, hst⟩ := h.outcome_and_state
  simp only [seen, houtcome, hst.machine, hst.streams.source, hst.streams.events]

theorem interpret_seen_of_sinks (fuel : Nat) (settings : Settings) (source : List UInt8)
    (st : Streams) :
    (interpret fuel settings source { st with sink := k }).map seenOutside =
      (interpret fuel settings source { st with sink := k' }).map seenOutside := by
  refine map_eq_of_rel ?_ (Streams.inStep_alike.interpret fuel settings source
    (alike_of_sinks hk hk' (st.recordLoad settings source) _ _))
  rintro x y ⟨houtcome, hst⟩
  simp only [seenOutside, houtcome, hst.source, hst.events]

/-- Of two sinks whose faults are all tolerated, a run ends with the one exactly when it ends with
the other, after the same steps, in the same outcome and with the same machine, the same input left
and the same events but for the marks; so does interpreting a source. And what a sink has stored
at the end is what the run has written, in order, less the writes that this sink has failed. -/
theorem run_independent_of_sink_faults (fuel : Nat) (settings : Settings) (st : Streams) :
    (∀ p m, (execute fuel settings p ⟨m, { st with sink := k }⟩).map seen =
      (execute fuel settings p ⟨m, { st with sink := k' }⟩).map seen) ∧
    (∀ source, (interpret fuel settings source { st with sink := k }).map seenOutside =
      (interpret fuel settings source { st with sink := k' }).map seenOutside) ∧
    (∀ p m o s', execute fuel settings p ⟨m, { st with sink := k }⟩ = some (o, s') →
      ∃ new, s'.streams.events.toList = st.events.toList ++ new ∧
        s'.streams.sink.stored.toList = k.stored.toList ++ k.accepted (written new)) ∧
    (∀ source o st', interpret fuel settings source { st with sink := k } = some (o, st') →
      ∃ new, st'.events.toList = st.events.toList ++ new ∧
        st'.sink.stored.toList = k.stored.toList ++ k.accepted (written new)) := by
  refine ⟨fun p m => execute_seen_of_sinks hk hk' fuel settings p m st,
    fun source => interpret_seen_of_sinks hk hk' fuel settings source st, ?_, ?_⟩
  · intro p m o s' h
    obtain ⟨new, hnew⟩ := (execute_calls h).since
    exact ⟨new, hnew.events, hnew.stored⟩
  · intro source o st' h
    obtain ⟨new, hnew⟩ := interpret_since h
    exact ⟨new, hnew.events, hnew.stored⟩

end

/-- The program `.+.,` on a sink whose first write breaks and whose flushes all fail ends as it
does on a sink that never fails, with the input exhausted, and only the second byte is stored. -/
theorem run_independent_of_sink_faults_broken_pipe :
    let sound : Sink := {}
    let broken : Sink :=
      { writeFault := fun n => if n = 0 then some ⟨.brokenPipe, "gone"⟩ else none
        flushFault := fun _ => some ⟨.value, "closed"⟩ }
    let p : Program := .instr (.op .write) (.instr (.op .increment) (.instr (.op .write)
      (.instr (.op .read) .nil)))
    sound.Ordinary ∧ broken.Ordinary ∧
      (execute 9 {} p ⟨.fresh 2, { sink := sound }⟩).map (·.1) =
        some (.failed (.inputExhausted 0)) ∧
      (execute 9 {} p ⟨.fresh 2, { sink := sound }⟩).map seen =
        (execute 9 {} p ⟨.fresh 2, { sink := broken }⟩).map seen ∧
      (execute 9 {} p ⟨.fresh 2, { sink := broken }⟩).map (·.2.streams.sink.stored.toList) =
        some [1] := by
  intro sound broken p
  have hsound : sound.Ordinary := by
    refine ⟨fun n f h => ?_, fun n f h => ?_⟩ <;> cases h
  have hbroken : broken.Ordinary := by
    refine ⟨fun n f h => ?_, fun n f h => ?_⟩
    · simp only [broken] at h
      split at h <;> cases h
      exact .inl (by decide)
    · cases h
      exact .inr (by decide)
  exact ⟨hsound, hbroken, rfl, (run_independent_of_sink_faults hsound hbroken 9 {} {}).1 p _, rfl⟩

end ByteTape
