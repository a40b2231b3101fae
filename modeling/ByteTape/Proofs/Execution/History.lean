/-
What has happened before a run does not matter to it. Events, log records and stored bytes are only
ever added at the end: a run begun with some of them already there goes as one begun without, and
leaves them in front of its own.
-/
import ByteTape.Proofs.Execution.Simulation

namespace ByteTape

/-! ## Beginning anew -/

namespace Streams

/-- The streams with nothing recorded on them yet. What is left to read stays, and so does how often
the sink was called. -/
def anew (st : Streams) : Streams :=
  { st with sink := { st.sink with stored := #[] }, events := #[], log := #[] }

/-- The streams with all in front that was recorded on earlier ones. -/
def onto (st past : Streams) : Streams :=
  { st with
    sink := { st.sink with stored := past.sink.stored ++ st.sink.stored }
    events := past.events ++ st.events
    log := past.log ++ st.log }

@[simp] theorem anew_onto (st : Streams) : st.anew.onto st = st := by
  simp only [anew, onto, Array.append_empty]

variable (st past : Streams)

theorem onto_write (b : UInt8) :
    (st.onto past).write b = ((st.write b).1, (st.write b).2.onto past) := by
  have hfault : (st.onto past).nextWriteFault = st.nextWriteFault := rfl
  rw [write_eq, write_eq, hfault]
  cases st.nextWriteFault with
  | none => simp [onto, Array.append_assoc]
  | some f => simp [onto, Array.append_assoc]

theorem onto_flush : (st.onto past).flush = (st.flush.1, st.flush.2.onto past) := by
  have hfault : (st.onto past).nextFlushFault = st.nextFlushFault := rfl
  rw [flush_eq, flush_eq, hfault]
  simp [onto, Array.append_assoc]

theorem onto_read : (st.onto past).read = (st.read.1, st.read.2.onto past) := by
  rw [read_eq, read_eq]
  simp [onto]

theorem inStep_onto : Streams.InStep fun st st' => st' = st.onto past where
  write := by
    rintro b st _ rfl
    rw [onto_write]
    exact ⟨rfl, rfl⟩
  flush := by
    rintro st _ rfl
    rw [onto_flush]
    exact ⟨rfl, rfl⟩
  read := by
    rintro st _ rfl
    rw [onto_read]
    exact ⟨rfl, rfl⟩

end Streams

def State.anew (s : State) : State := ⟨s.machine, s.streams.anew⟩

def State.onto (s past : State) : State := ⟨s.machine, s.streams.onto past.streams⟩

/-- An execution adds to what is recorded already what it records when it begins anew. -/
theorem execute_onto (fuel : Nat) (settings : Settings) (p : Program) (s : State) :
    execute fuel settings p s =
      (execute fuel settings p s.anew).map fun x => (x.1, x.2.onto s) := by
  have honto := (Streams.inStep_onto s.streams).execute_eq fuel settings p s.machine s.streams.anew
  rw [Streams.anew_onto] at honto
  exact honto

/-! ## Events and log records alone -/

/-- Events and log records of earlier. -/
structure History where
  events : Array Event
  log : Array LogRecord

/-- Streams with a history in front of their own. -/
def Streams.after (past : History) (st : Streams) : Streams :=
  { st with events := past.events ++ st.events, log := past.log ++ st.log }

/-- A state with a history in front of its own. -/
def State.after (past : History) (s : State) : State := ⟨s.machine, s.streams.after past⟩

theorem State.after_mk (past : History) (m : Machine) (st : Streams) :
    State.after past ⟨m, st⟩ = ⟨m, st.after past⟩ := rfl

/-- A history is streams on which nothing was stored. -/
theorem Streams.after_eq_onto (past : History) (st : Streams) :
    st.after past = st.onto { events := past.events, log := past.log } := by
  simp only [after, onto, Array.empty_append]

theorem Streams.after_flush (past : History) (st : Streams) :
    (st.after past).flush = (st.flush.1, st.flush.2.after past) := by
  simp only [after_eq_onto, onto_flush]

/-- An execution is the same after any history, which it leaves in front. -/
theorem execute_after (past : History) (fuel : Nat) (settings : Settings) (p : Program)
    (s : State) :
    execute fuel settings p (s.after past) =
      (execute fuel settings p s).map fun x => (x.1, x.2.after past) := by
  have honto := (Streams.inStep_onto { events := past.events, log := past.log }).execute_eq
    fuel settings p s.machine s.streams
  simp only [← Streams.after_eq_onto] at honto
  exact honto

end ByteTape
