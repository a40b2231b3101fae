/-
The calls that a run makes on its streams, read off its steps. Which calls an instruction makes is
seen from the state that it is begun in: a write hands on the value of the current cell, and a read
flushes and, unless that fails for good, reads once. The calls of a run are those of its steps, in a
row, and they are all that happens to its streams.
-/
import ByteTape.Proofs.Execution.Simulation
import ByteTape.Proofs.Streams.Calls

namespace ByteTape

/-! ## Single instructions -/

/-- The calls that an instruction makes in a state. A write hands on the value of the current cell; a
read flushes and, unless that fails for good, reads once. -/
def Instruction.calls (s : State) : Instruction → List Call
  | .op .write => match s.machine.current with
    | .ok b => [.write b s.streams.nextWriteFault]
    | .error _ => []
  | .op .read => match s.streams.flush.1 with
    | .normal => [.flush s.streams.nextFlushFault, .read s.streams.flush.2.read.1]
    | .failed _ => [.flush s.streams.nextFlushFault]
  | .op .right | .op .left | .op .increment | .op .decrement | .foreign _ => []

namespace Instruction

variable {s : State}

theorem calls_write_of_error {e : Error} (h : s.machine.current = .error e) :
    (Instruction.op .write).calls s = [] := by
  simp only [calls, h]

theorem calls_write_of_current {b : UInt8} (h : s.machine.current = .ok b) :
    (Instruction.op .write).calls s = [.write b s.streams.nextWriteFault] := by
  simp only [calls, h]

theorem calls_read_of_flush_failed {e : Error} (h : s.streams.flush.1 = .failed e) :
    (Instruction.op .read).calls s = [.flush s.streams.nextFlushFault] := by
  simp only [calls, h]

theorem calls_read_of_flushed (h : s.streams.flush.1 = .normal) :
    (Instruction.op .read).calls s =
      [.flush s.streams.nextFlushFault, .read s.streams.flush.2.read.1] := by
  simp only [calls, h]

/-- The calls of an instruction are all that it does to the streams. -/
theorem perform_calls (r : Rules) (i : Instruction) (s : State) :
    s.streams.Calls (i.calls s) (i.perform r s).2.streams := by
  cases i with
  | foreign name => exact .none
  | op o =>
    cases o with
    | right | left =>
      simp only [perform, State.move_streams]
      exact .none
    | increment | decrement =>
      simp only [perform, State.modifyCell_streams]
      exact .none
    | write =>
      rw [perform]
      cases hc : s.machine.current with
      | error e =>
        rw [State.write_of_error hc, calls_write_of_error hc]
        exact .none
      | ok b =>
        rw [State.write_of_current hc, calls_write_of_current hc]
        exact Streams.Calls.none.write b
    | read =>
      rw [perform]
      cases hf : s.streams.flush.1 with
      | failed e =>
        rw [State.read_of_flush_failed hf, calls_read_of_flush_failed hf]
        exact Streams.Calls.none.flush
      | normal =>
        rw [State.read_of_flushed hf, calls_read_of_flushed hf, State.receive_streams]
        exact Streams.Calls.none.flush.read

end Instruction

/-! ## Steps -/

namespace Config

/-- The calls that the next step makes. -/
def calls (c : Config) : List Call :=
  match c.next? with
  | some i => i.calls c.state
  | none => []

theorem calls_of_next {c : Config} {i : Instruction} (h : c.next? = some i) :
    c.calls = i.calls c.state := by
  simp only [calls, h]

theorem calls_of_quiet {c : Config} (h : c.next? = none) : c.calls = [] := by
  simp only [calls, h]

/-- The calls of the first `n` steps, or of all steps, if there are fewer. -/
def callsWithin (r : Rules) : Nat → Config → List Call
  | 0, _ => []
  | n + 1, c => c.calls ++ match c.step r with
    | .running c' => c'.callsWithin r n
    | .ended _ _ => []

theorem step_calls (r : Rules) (c : Config) :
    c.state.streams.Calls c.calls (c.step r).state.streams := by
  cases hnext : c.next? with
  | some i =>
    rw [calls_of_next hnext]
    obtain ⟨body, rest, outer, hc⟩ := eq_of_next? hnext
    rw [hc, step_perform, Progress.state_after]
    exact i.perform_calls r c.state
  | none =>
    rw [calls_of_quiet hnext]
    obtain ⟨stack, hs⟩ | ⟨o, hs⟩ := step_quiet hnext
    · rw [hs r c.state rfl]
      exact .none
    · rw [hs r c.state rfl]
      exact .none

theorem advance_calls (r : Rules) (n : Nat) (c : Config) :
    c.state.streams.Calls (c.callsWithin r n)
      ((Progress.running c).advance r n).state.streams := by
  induction n generalizing c with
  | zero => exact .none
  | succ n ih =>
    have hstep := step_calls r c
    rw [callsWithin, Progress.advance_running]
    cases hs : c.step r with
    | running c' =>
      rw [hs] at hstep
      exact hstep.append (ih c')
    | ended o s =>
      rw [hs] at hstep
      rw [Progress.advance_ended, List.append_nil]
      exact hstep

end Config

/-! ## Executions -/

/-- The calls of an execution: those of its steps, or none where the wrap is not known. -/
def executionCalls (fuel : Nat) (settings : Settings) (p : Program) (s : State) : List Call :=
  match settings.wrap.modulus s.machine.cells.size with
  | .error _ => []
  | .ok modulus => (Config.start p s).callsWithin ⟨modulus, settings.onEof⟩ fuel

theorem executionCalls_of_unknown {fuel : Nat} {settings : Settings} {p : Program} {s : State}
    {v : Scalar} (h : settings.wrap = .other v) : executionCalls fuel settings p s = [] := by
  simp only [executionCalls, h, PointerWrap.modulus]

theorem executionCalls_of_modulus {fuel : Nat} {settings : Settings} {p : Program} {s : State}
    {modulus : Nat} (h : settings.wrap.modulus s.machine.cells.size = .ok modulus) :
    executionCalls fuel settings p s =
      (Config.start p s).callsWithin ⟨modulus, settings.onEof⟩ fuel := by
  simp only [executionCalls, h]

theorem execute_calls {fuel : Nat} {settings : Settings} {p : Program} {s s' : State} {o : Outcome}
    (h : execute fuel settings p s = some (o, s')) :
    s.streams.Calls (executionCalls fuel settings p s) s'.streams := by
  obtain ⟨v, hwrap, -, rfl⟩ | ⟨modulus, hm, hg⟩ := execute_advance h
  · rw [executionCalls_of_unknown hwrap]
    exact .none
  · rw [executionCalls_of_modulus hm]
    have hcalls := (Config.start p s).advance_calls ⟨modulus, settings.onEof⟩ fuel
    rwa [hg] at hcalls

end ByteTape
