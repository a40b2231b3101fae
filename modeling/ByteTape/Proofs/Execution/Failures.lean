/-
Failed runs. A run that fails does so at one step: an instruction fails, or the guard of a loop finds
no cell. The machine is left as the instructions completed before that step have made it. Of the
streams, a failing instruction has used only what it had come to: a write its one call, which failed,
a read its flush and then, if the flush did not fail for good, its one read; anything else nothing.
-/
import ByteTape.Proofs.Execution.Blocks

namespace ByteTape

variable {r : Rules}

/-! ## Instructions completed in a row -/

/-- The instructions, each completed before the next one begins, lead from the first state to the
second. -/
inductive Completed (r : Rules) (s : State) : List Instruction → State → Prop
  | none : Completed r s [] s
  | next {done : List Instruction} {i : Instruction} {s₁ s₂ : State} :
      Completed r s done s₁ → i.perform r s₁ = (.normal, s₂) → Completed r s (done ++ [i]) s₂

/-- A stage of a run is in the state that the instructions completed on the way have made. -/
theorem Reaches.completed {c c₁ : Config} {done : List Instruction}
    (h : Reaches r c done (.running c₁)) : Completed r c.state done c₁.state := by
  refine h.running_induction (Q := fun done c₁ => Completed r c.state done c₁.state) .none ?_
  intro done c₁ c₂ hdone hs
  obtain ⟨i, hnext, hperform⟩ | ⟨hnext, hstate⟩ := Config.step_running hs
  · rw [hnext, Option.toList_some]
    exact hdone.next hperform
  · rw [hnext, Option.toList_none, List.append_nil, hstate]
    exact hdone

/-! ## What fails, and what it has called -/

/-- Begun in a state, an instruction fails with an error, or the guard of a loop does, having made
these calls on the streams and no others. -/
inductive Breaks (s : State) : Option Instruction → Error → List Call → Prop
  | guard {e : Error} : s.machine.current = .error e → Breaks s none e []
  | silent {i : Instruction} {e : Error} :
      i ≠ .op .read → (∀ f, e ≠ .fault f) → Breaks s (some i) e []
  | write {b : UInt8} {f : Fault} :
      s.machine.current = .ok b → ¬ f.Ordinary →
        Breaks s (some (.op .write)) (.fault f) [.write b (some f)]
  | flush {f : Fault} :
      ¬ f.Ordinary → Breaks s (some (.op .read)) (.fault f) [.flush (some f)]
  | read {fault? : Option Fault} {x : ReadResult} {e : Error} :
      (∀ f, fault? = some f → f.Ordinary) → (∀ f, e = .fault f ↔ x = .fault f) →
        Breaks s (some (.op .read)) e [.flush fault?, .read x]

namespace Instruction

variable {s : State} {e : Error}

theorem write_breaks (h : s.write.1 = .failed e) :
    Breaks s (some (.op .write)) e ((Instruction.op .write).calls s) := by
  cases hc : s.machine.current with
  | error e' =>
    rw [State.write_of_error hc] at h
    cases h
    rw [calls_write_of_error hc]
    refine .silent (by decide) ?_
    rintro f rfl
    exact s.machine.index_ne_fault f (Machine.current_eq_error_iff.1 hc)
  | ok b =>
    rw [State.write_of_current hc] at h
    obtain ⟨f, hf, hf', rfl⟩ :=
      Fault.of_outcome_failed ((Streams.write_outcome s.streams b).symm.trans h)
    rw [calls_write_of_current hc, hf]
    exact .write hc hf'

/-- Taking over what was read fails with a fault exactly if a fault was read. -/
theorem fault_iff_of_receive {policy : EofPolicy} {x : ReadResult}
    (h : (s.receive policy x).1 = .failed e) (f : Fault) : e = .fault f ↔ x = .fault f := by
  constructor
  · rintro rfl
    cases x with
    | fault f' =>
      cases h
      rfl
    | data | nothing => exact absurd h (receive_ne_fault (fun _ hx => by cases hx) s f)
  · rintro rfl
    cases h
    rfl

theorem read_breaks {policy : EofPolicy} (h : (s.read policy).1 = .failed e) :
    Breaks s (some (.op .read)) e ((Instruction.op .read).calls s) := by
  have houtcome := Streams.flush_outcome s.streams
  cases hf : s.streams.flush.1 with
  | failed e' =>
    rw [State.read_of_flush_failed hf] at h
    cases h
    obtain ⟨f, hfault, hf', rfl⟩ := Fault.of_outcome_failed (houtcome.symm.trans hf)
    rw [calls_read_of_flush_failed hf, hfault]
    exact .flush hf'
  | normal =>
    have hordinary := Fault.ordinary_of_outcome (houtcome.symm.trans hf)
    rw [State.read_of_flushed hf] at h
    rw [calls_read_of_flushed hf]
    exact .read hordinary (fault_iff_of_receive h)

/-- An instruction that fails has made the calls that it had come to. -/
theorem perform_breaks {i : Instruction} (h : (i.perform r s).1 = .failed e) :
    Breaks s (some i) e (i.calls s) := by
  cases i with
  | foreign name =>
    cases h
    exact .silent (fun hi => by cases hi) (fun f hf => by cases hf)
  | op o =>
    cases o with
    | right | left =>
      obtain ⟨-, rfl, -⟩ := State.move_failed h
      exact .silent (by decide) (fun f hf => by cases hf)
    | increment | decrement =>
      obtain ⟨hindex, -⟩ := State.modifyCell_failed h
      refine .silent (by decide) ?_
      rintro f rfl
      exact s.machine.index_ne_fault f hindex
    | write => exact write_breaks h
    | read => exact read_breaks h

end Instruction

/-- A step at which a run fails leaves the machine, and has made the calls that it had come to. -/
theorem Config.step_breaks {c : Config} {e : Error} {s' : State}
    (h : c.step r = .ended (.failed e) s') :
    s'.machine = c.state.machine ∧ Breaks c.state c.next? e c.calls := by
  cases hnext : c.next? with
  | some i =>
    obtain ⟨body, rest, outer, hc⟩ := eq_of_next? hnext
    rw [hc, step_perform] at h
    rcases hi : i.perform r c.state with ⟨_ | e', s₁⟩ <;> rw [hi] at h <;> cases h
    have hfailed : (i.perform r c.state).1 = .failed e := by rw [hi]
    have hmachine := Instruction.machine_of_failed hfailed
    rw [hi] at hmachine
    rw [calls_of_next hnext]
    exact ⟨hmachine, Instruction.perform_breaks hfailed⟩
  | none =>
    obtain ⟨i, e', hi, -⟩ | ⟨rfl, ho | ⟨e', ho, hcurrent⟩⟩ := step_ended h
    · rw [hnext] at hi
      cases hi
    · cases ho
    · cases ho
      rw [calls_of_quiet hnext]
      exact ⟨rfl, .guard hcurrent⟩

/-! ## Failed executions -/

/-- Whatever is run on whatever machine and streams, an execution that ends with an error has either
met a wrap that is not known, and done nothing, or it has come to a step that fails. The machine is
then, tape and pointer, as it was before that step, which is what the instructions completed until
then have made of it; and the step has made no call on the streams, unless it is a write whose call
the sink failed for good, or a read, which has made its flush and, if the sink did not fail that for
good, one read. -/
theorem failure_keeps_machine {settings : Settings} {p : Program} {s s' : State} {e : Error}
    (h : Ends settings p s (.failed e) s') :
    (∃ v, settings.wrap = .other v ∧ e = .unhandledWrap v ∧ s' = s) ∨
      ∃ modulus done c calls,
        settings.wrap.modulus s.machine.cells.size = .ok modulus ∧
        Reaches ⟨modulus, settings.onEof⟩ (.start p s) done (.running c) ∧
        Completed ⟨modulus, settings.onEof⟩ s done c.state ∧
        c.step ⟨modulus, settings.onEof⟩ = .ended (.failed e) s' ∧
        s'.machine = c.state.machine ∧
        c.state.streams.Calls calls s'.streams ∧ Breaks c.state c.next? e calls := by
  obtain ⟨fuel, hx⟩ := ends_iff.1 h
  obtain ⟨v, hwrap, ho, hs⟩ | ⟨modulus, done, hm, hdone⟩ := execute_reaches hx
  · cases ho
    exact .inl ⟨v, hwrap, rfl, hs⟩
  · cases hdone with
    | @ended _ c _ _ hreach hstep =>
      obtain ⟨hmachine, hbreaks⟩ := Config.step_breaks hstep
      have hcalls := c.step_calls ⟨modulus, settings.onEof⟩
      rw [hstep] at hcalls
      exact .inr ⟨modulus, done, c, c.calls, hm, hreach, hreach.completed, hstep, hmachine, hcalls,
        hbreaks⟩

/-- On two cells and a sink that is closed, `+>,` without input fails at cell 1, and leaves the first
cell as `+` and the pointer as `>` have made them; the flush before the read has been tolerated. -/
theorem failure_keeps_machine_closed_sink :
    let p : Program := .instr (.op .increment) (.instr (.op .right) (.instr (.op .read) .nil))
    let s : State :=
      ⟨⟨#[0, 0], 0⟩, { sink := { flushFault := fun _ => some ⟨.value, "closed"⟩ } }⟩
    ∃ (s' : State) (done : List Instruction) (c : Config) (calls : List Call),
      Ends { wrap := .tape } p s (.failed (.inputExhausted 1)) s' ∧
      s'.machine = ⟨#[1, 0], 1⟩ ∧ s'.streams.events = #[.flush true, .read (.data [])] ∧
      Completed ⟨2, .abort⟩ s done c.state ∧ s'.machine = c.state.machine ∧
      c.state.streams.Calls calls s'.streams ∧ Breaks c.state c.next? (.inputExhausted 1) calls := by
  intro p s
  have hends : Ends { wrap := .tape } p s (.failed (.inputExhausted 1)) _ := ends_iff.2 ⟨5, rfl⟩
  obtain ⟨v, hwrap, -⟩ | ⟨modulus, done, c, calls, hm, -, hdone, -, hmachine, hcalls, hbreaks⟩ :=
    failure_keeps_machine hends
  · cases hwrap
  · cases hm
    exact ⟨_, done, c, calls, hends, rfl, rfl, hdone, hmachine, hcalls, hbreaks⟩

end ByteTape
