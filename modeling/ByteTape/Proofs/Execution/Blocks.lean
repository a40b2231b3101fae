/-
How a run talks to its streams. It does so in blocks: one write, or one flush and at once one read.
A run goes on after a block only if the sink raised nothing in it, or a fault that is tolerated,
and the source raised nothing; any other fault ends the run, and is its outcome. So only the last
block can lack its read, and then the flush has failed for good. Interpreting a source adds one
flush at the end, whatever the run came to.
-/
import ByteTape.Proofs.Execution.Calls
import ByteTape.Proofs.Execution.Reachable
import ByteTape.Proofs.Interpret

namespace ByteTape

variable {r : Rules}

/-! ## Blocks -/

/-- Complete blocks after which a run goes on. -/
inductive Blocks : List Call → Prop
  | nil : Blocks []
  | write {calls : List Call} {b : UInt8} {fault? : Option Fault} :
      Blocks calls → (∀ f, fault? = some f → f.Ordinary) → Blocks (calls ++ [.write b fault?])
  | read {calls : List Call} {fault? : Option Fault} {x : ReadResult} :
      Blocks calls → (∀ f, fault? = some f → f.Ordinary) → (∀ f, x ≠ .fault f) →
        Blocks (calls ++ [.flush fault?, .read x])

/-- Such blocks, and then a last one in which a fault ends the run: raised by a write, by a flush,
after which nothing is read, or by a read. -/
inductive BrokenBlocks (f : Fault) : List Call → Prop
  | write {calls : List Call} {b : UInt8} :
      Blocks calls → ¬ f.Ordinary → BrokenBlocks f (calls ++ [.write b (some f)])
  | flush {calls : List Call} :
      Blocks calls → ¬ f.Ordinary → BrokenBlocks f (calls ++ [.flush (some f)])
  | read {calls : List Call} {fault? : Option Fault} :
      Blocks calls → (∀ f', fault? = some f' → f'.Ordinary) →
        BrokenBlocks f (calls ++ [.flush fault?, .read (.fault f)])

/-- The calls of a run that has come to this outcome: they break off at a fault exactly when the
fault is the outcome. -/
def Outcome.Concludes (calls : List Call) : Outcome → Prop
  | .failed (.fault f) => BrokenBlocks f calls
  | _ => Blocks calls

/-- The calls of a run that has come to this stage. -/
def Progress.Concludes (calls : List Call) : Progress → Prop
  | .running _ => Blocks calls
  | .ended o _ => o.Concludes calls

theorem Blocks.concludes {calls : List Call} (h : Blocks calls) {o : Outcome}
    (ho : ∀ f, o ≠ .failed (.fault f)) : o.Concludes calls := by
  unfold Outcome.Concludes
  split
  · exact absurd rfl (ho _)
  · exact h

namespace Instruction

/-- Taking over what was read raises no fault of its own. -/
theorem receive_ne_fault {policy : EofPolicy} {x : ReadResult} (hx : ∀ f, x ≠ .fault f) (s : State)
    (f : Fault) : (State.receive policy x s).1 ≠ .failed (.fault f) := by
  intro h
  have hcell : ∀ g, (s.modifyCell g).1 ≠ .failed (.fault f) := fun g hg =>
    s.machine.index_ne_fault f (State.modifyCell_failed hg).1
  unfold State.receive at h
  split at h
  · rename_i f' hbyte
    exact hx f' (ReadResult.eq_fault_of_byte? hbyte)
  · exact hcell _ h
  · split at h
    · cases h
    · exact hcell _ h
    · cases h
    · cases h

variable {calls : List Call}

theorem write_concludes (s : State) (hblocks : Blocks calls) :
    s.write.1.Concludes (calls ++ (Instruction.op .write).calls s) := by
  cases hc : s.machine.current with
  | error e =>
    rw [State.write_of_error hc, calls_write_of_error hc, List.append_nil]
    refine hblocks.concludes fun f hf => ?_
    cases hf
    exact s.machine.index_ne_fault f (Machine.current_eq_error_iff.1 hc)
  | ok b =>
    rw [State.write_of_current hc, calls_write_of_current hc]
    have houtcome := Streams.write_outcome s.streams b
    cases ho : (s.streams.write b).1 with
    | normal => exact hblocks.write (Fault.ordinary_of_outcome (houtcome.symm.trans ho))
    | failed e =>
      obtain ⟨f, hf, hf', rfl⟩ := Fault.of_outcome_failed (houtcome.symm.trans ho)
      rw [hf]
      exact .write hblocks hf'

theorem read_concludes (s : State) (policy : EofPolicy) (hblocks : Blocks calls) :
    (s.read policy).1.Concludes (calls ++ (Instruction.op .read).calls s) := by
  have houtcome := Streams.flush_outcome s.streams
  cases hf : s.streams.flush.1 with
  | failed e =>
    rw [State.read_of_flush_failed hf, calls_read_of_flush_failed hf]
    obtain ⟨f, hfault, hf', rfl⟩ := Fault.of_outcome_failed (houtcome.symm.trans hf)
    rw [hfault]
    exact .flush hblocks hf'
  | normal =>
    have hordinary := Fault.ordinary_of_outcome (houtcome.symm.trans hf)
    rw [State.read_of_flushed hf, calls_read_of_flushed hf]
    by_cases hx : ∃ f, s.streams.flush.2.read.1 = .fault f
    · obtain ⟨f, hx⟩ := hx
      rw [hx]
      exact .read hblocks hordinary
    · push Not at hx
      exact (hblocks.read hordinary hx).concludes (receive_ne_fault hx _)

/-- An instruction adds a block to the calls of a run, or breaks them off, or adds nothing. -/
theorem perform_concludes (r : Rules) (i : Instruction) (s : State) (hblocks : Blocks calls) :
    (i.perform r s).1.Concludes (calls ++ i.calls s) := by
  cases i with
  | foreign name =>
    rw [Instruction.calls, List.append_nil]
    exact hblocks
  | op o =>
    cases o with
    | right | left =>
      rw [Instruction.calls, List.append_nil]
      refine hblocks.concludes fun f hf => ?_
      cases (State.move_failed hf).2.1
    | increment | decrement =>
      rw [Instruction.calls, List.append_nil]
      exact hblocks.concludes fun f hf =>
        s.machine.index_ne_fault f (State.modifyCell_failed hf).1
    | write => exact write_concludes s hblocks
    | read => exact read_concludes s r.onEof hblocks

end Instruction

/-! ## Whole runs -/

@[simp] theorem Progress.concludes_after {calls : List Call} (stack : List Frame) (s : State)
    (o : Outcome) : (Progress.after stack s o).Concludes calls ↔ o.Concludes calls := by
  cases o <;> rfl

namespace Config

/-- A step adds a block to the calls of a run, or breaks them off, or adds nothing. -/
theorem step_concludes {calls : List Call} (r : Rules) (c : Config) (hblocks : Blocks calls) :
    (c.step r).Concludes (calls ++ c.calls) := by
  cases hnext : c.next? with
  | some i =>
    rw [calls_of_next hnext]
    obtain ⟨body, rest, outer, hc⟩ := eq_of_next? hnext
    rw [hc, step_perform, Progress.concludes_after]
    exact i.perform_concludes r c.state hblocks
  | none =>
    rw [calls_of_quiet hnext, List.append_nil]
    cases hs : c.step r with
    | running c' => exact hblocks
    | ended o s =>
      -- a guard fails only for want of a cell
      refine hblocks.concludes fun f hf => ?_
      obtain ⟨i, e, hi, -⟩ | ⟨-, ho | ⟨e, ho, hcurrent⟩⟩ := step_ended hs
      · rw [hnext] at hi
        cases hi
      · rw [ho] at hf
        cases hf
      · rw [ho] at hf
        cases hf
        exact c.state.machine.index_ne_fault f (Machine.current_eq_error_iff.1 hcurrent)

/-- So do so many steps in a row. -/
theorem advance_concludes {calls : List Call} (r : Rules) (n : Nat) (c : Config)
    (hblocks : Blocks calls) :
    ((Progress.running c).advance r n).Concludes (calls ++ c.callsWithin r n) := by
  induction n generalizing c calls with
  | zero =>
    rw [callsWithin, List.append_nil]
    exact hblocks
  | succ n ih =>
    have hstep := c.step_concludes r hblocks
    rw [callsWithin, Progress.advance_running, ← List.append_assoc]
    cases hs : c.step r with
    | running c' =>
      rw [hs] at hstep
      exact ih c' hstep
    | ended o s =>
      rw [hs] at hstep
      rw [Progress.advance_ended, List.append_nil]
      exact hstep

end Config

/-- Every stage of a run comes of calls in blocks. -/
theorem Reaches.concludes {c : Config} {done : List Instruction} {g : Progress}
    (h : Reaches r c done g) :
    ∃ calls, c.state.streams.Calls calls g.state.streams ∧ g.Concludes calls := by
  induction h with
  | start => exact ⟨[], .none, .nil⟩
  | @step _ c₁ _ _ hs ih | @ended _ c₁ _ _ _ hs ih =>
    obtain ⟨calls, hcalls, hblocks⟩ := ih
    have hmade := c₁.step_calls r
    have hconcludes := c₁.step_concludes r hblocks
    rw [hs] at hmade hconcludes
    exact ⟨calls ++ c₁.calls, hcalls.append hmade, hconcludes⟩

theorem execute_concludes {fuel : Nat} {settings : Settings} {p : Program} {s s' : State}
    {o : Outcome} (h : execute fuel settings p s = some (o, s')) :
    o.Concludes (executionCalls fuel settings p s) := by
  obtain ⟨v, hwrap, rfl, -⟩ | ⟨modulus, hm, hg⟩ := execute_advance h
  · rw [executionCalls_of_unknown hwrap]
    exact Blocks.nil
  · rw [executionCalls_of_modulus hm]
    have hconcludes := (Config.start p s).advance_concludes ⟨modulus, settings.onEof⟩ fuel .nil
    rwa [hg] at hconcludes

/-! ## Interpreting a source -/

/-- The last flush follows the calls of the run, and a fault of it that is not tolerated takes the
place of the run's outcome. -/
theorem interpret_concludes {fuel : Nat} {settings : Settings} {source : List UInt8}
    {st st' : Streams} {p : Program} {o : Outcome}
    (hload : (Program.load settings.strict source).result = .ok p)
    (h : interpret fuel settings source st = some (o, st')) :
    ∃ o₁ s₁ calls fault?,
      execute fuel settings p ⟨.fresh Machine.defaultSize, st.recordLoad settings source⟩ =
        some (o₁, s₁) ∧
      (st.recordLoad settings source).Calls (calls ++ [.flush fault?]) st' ∧
      o₁.Concludes calls ∧
      (∀ f, fault? = some f → ¬ f.Ordinary → o = .failed (.fault f)) ∧
      ((∀ f, fault? = some f → f.Ordinary) → o = o₁) := by
  obtain ⟨o₁, s₁, hx, rfl, hraised, hquiet⟩ := interpret_program hload h
  exact ⟨o₁, s₁, _, _, hx, (execute_calls hx).flush, execute_concludes hx, hraised, hquiet⟩

/-- At every stage of a run, and at its end, the events since its beginning are those of calls in
blocks, whatever the program, the machine, the settings and the streams; and a run breaks off in
the midst of them exactly at a fault that is its outcome. Interpreting a source that is no program
leaves no event; otherwise the events are those of the run and then of one flush. If that flush
raises a fault that is not tolerated, this fault is the outcome, and otherwise the outcome is the
run's own. -/
theorem streams_used_in_blocks :
    (∀ (settings : Settings) (p : Program) (s : State) (modulus : Nat) (done : List Instruction)
      (g : Progress), settings.wrap.modulus s.machine.cells.size = .ok modulus →
      Reaches ⟨modulus, settings.onEof⟩ (.start p s) done g →
        ∃ calls, s.streams.Calls calls g.state.streams ∧
          g.state.streams.events.toList = s.streams.events.toList ++ calls.map Call.event ∧
          g.Concludes calls) ∧
    (∀ (fuel : Nat) (settings : Settings) (p : Program) (s s' : State) (o : Outcome),
      execute fuel settings p s = some (o, s') →
        ∃ calls, s.streams.Calls calls s'.streams ∧
          s'.streams.events.toList = s.streams.events.toList ++ calls.map Call.event ∧
          o.Concludes calls) ∧
    (∀ (fuel : Nat) (settings : Settings) (source : List UInt8) (st st' : Streams) (o : Outcome),
      interpret fuel settings source st = some (o, st') →
        match (Program.load settings.strict source).result with
        | .error e => o = .failed e ∧ st'.events = st.events
        | .ok p => ∃ o₁ s₁ calls fault?,
            execute fuel settings p ⟨.fresh Machine.defaultSize, st.recordLoad settings source⟩ =
              some (o₁, s₁) ∧
            (st.recordLoad settings source).Calls (calls ++ [.flush fault?]) st' ∧
            st'.events.toList =
              st.events.toList ++ calls.map Call.event ++ [.flush fault?.isSome] ∧
            o₁.Concludes calls ∧
            (∀ f, fault? = some f → ¬ f.Ordinary → o = .failed (.fault f)) ∧
            ((∀ f, fault? = some f → f.Ordinary) → o = o₁)) := by
  refine ⟨fun settings p s modulus done g _ h => ?_, fun fuel settings p s s' o h => ?_,
    fun fuel settings source st st' o h => ?_⟩
  · obtain ⟨calls, hcalls, hconcludes⟩ := h.concludes
    exact ⟨calls, hcalls, hcalls.events, hconcludes⟩
  · have hcalls := execute_calls h
    exact ⟨_, hcalls, hcalls.events, execute_concludes h⟩
  · split
    · rename_i e hload
      rw [interpret_of_load_error hload] at h
      cases h
      exact ⟨rfl, rfl⟩
    · rename_i p hload
      obtain ⟨o₁, s₁, calls, fault?, hx, hcalls, hconcludes, hraised, hquiet⟩ :=
        interpret_concludes hload h
      refine ⟨o₁, s₁, calls, fault?, hx, hcalls, ?_, hconcludes, hraised, hquiet⟩
      have hevents := hcalls.events
      rwa [List.map_append, ← List.append_assoc] at hevents

/-- On a sink that is closed at the first flush and broken for good at the next one and at every
write, `,.` reads a byte in a complete block and breaks off at the write; interpreting `,` without
input breaks off nowhere, but the last flush replaces its outcome. -/
theorem streams_used_in_blocks_broken_sink :
    let sink : Sink :=
      { writeFault := fun _ => some ⟨.runtime, "full"⟩
        flushFault := fun n => some (if n = 0 then ⟨.value, "closed"⟩ else ⟨.runtime, "gone"⟩) }
    let p : Program := .instr (.op .read) (.instr (.op .write) .nil)
    let s : State := ⟨.fresh 2, { sink, source := [.data [0x61]] }⟩
    (∃ g calls, Reaches ⟨256, .abort⟩ (.start p s) [.op .read] g ∧
      calls.map Call.event = [.flush true, .read (.data [0x61])] ∧ Blocks calls) ∧
    (∃ calls, calls.map Call.event = [.flush true, .read (.data [0x61]), .write 0x61 true] ∧
      BrokenBlocks ⟨.runtime, "full"⟩ calls) ∧
    (∃ calls, calls.map Call.event = [.flush true, .read (.data [])] ∧ Blocks calls) ∧
    (interpret 1 {} [0x2c] { sink }).map (·.1) = some (.failed (.fault ⟨.runtime, "gone"⟩)) := by
  intro sink p s
  obtain ⟨hstages, hends, hinterpret⟩ := streams_used_in_blocks
  have hread : (Config.start p s).step ⟨256, .abort⟩ = .running _ := rfl
  obtain ⟨calls₁, -, hevents₁, hblocks₁⟩ := hstages {} p s 256 _ _ rfl (Reaches.start.step hread)
  obtain ⟨calls₂, -, hevents₂, hbroken₂⟩ := hends 2 {} p s _ _ rfl
  obtain ⟨o₁, s₁, calls₃, fault?, hx, -, hevents₃, hblocks₃, -⟩ :=
    hinterpret 1 {} [0x2c] { sink } _ _ rfl
  cases hx
  have hrun : [.flush true, .read (.data [])] ++ [.flush true] =
      calls₃.map Call.event ++ [.flush fault?.isSome] := hevents₃
  exact ⟨⟨_, calls₁, Reaches.start.step hread, hevents₁.symm, hblocks₁⟩,
    ⟨calls₂, hevents₂.symm, hbroken₂⟩, ⟨calls₃, (List.append_inj' hrun rfl).1.symm, hblocks₃⟩, rfl⟩

end ByteTape
