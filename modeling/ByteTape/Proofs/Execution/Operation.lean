/-
What each operation comes to, said through the machine and the streams it works on: the operations
on the tape leave the streams alone, and the two on the streams go through one write, or one flush
and then one read. A move alone changes the pointer, nothing changes the length of the tape, and
`Fails` lists the reasons for which an instruction fails.
-/
import ByteTape.Execution.Operation
import ByteTape.Proofs.Machine
import ByteTape.Proofs.Streams

namespace ByteTape

namespace State

/-! ## The tape -/

@[simp] theorem modifyCell_streams (s : State) (f : UInt8 → UInt8) :
    (s.modifyCell f).2.streams = s.streams := by
  unfold modifyCell
  dsimp only
  split <;> rfl

theorem modifyCell_of_ok {s : State} {i : Nat} (h : s.machine.index = .ok i) (f : UInt8 → UInt8) :
    s.modifyCell f = (.normal, ⟨s.machine.set i (f (s.machine.cells.getD i 0)), s.streams⟩) := by
  simp only [modifyCell, h]

theorem modifyCell_of_error {s : State} {e : Error} (h : s.machine.index = .error e)
    (f : UInt8 → UInt8) : s.modifyCell f = (.failed e, s) := by
  simp only [modifyCell, h]

@[simp] theorem move_streams (modulus : Nat) (d : Int) (s : State) :
    (s.move modulus d).2.streams = s.streams := by
  unfold move
  dsimp only
  split <;> rfl

theorem move_of_ok {modulus : Nat} {d : Int} {s : State} {m : Machine}
    (h : s.machine.move modulus d = .ok m) : s.move modulus d = (.normal, ⟨m, s.streams⟩) := by
  simp only [move, h]

theorem move_of_error {modulus : Nat} {d : Int} {s : State} {e : Error}
    (h : s.machine.move modulus d = .error e) : s.move modulus d = (.failed e, s) := by
  simp only [move, h]

/-- The state with its streams changed. -/
def onStreams (f : Streams → Streams) (s : State) : State := ⟨s.machine, f s.streams⟩

theorem modifyCell_onStreams (f : Streams → Streams) (s : State) (g : UInt8 → UInt8) :
    (s.onStreams f).modifyCell g = ((s.modifyCell g).1, (s.modifyCell g).2.onStreams f) := by
  cases hi : s.machine.index with
  | error e =>
    have hi' : (s.onStreams f).machine.index = .error e := hi
    rw [modifyCell_of_error hi, modifyCell_of_error hi']
  | ok i =>
    have hi' : (s.onStreams f).machine.index = .ok i := hi
    rw [modifyCell_of_ok hi, modifyCell_of_ok hi']
    rfl

theorem move_onStreams (f : Streams → Streams) (s : State) (modulus : Nat) (d : Int) :
    (s.onStreams f).move modulus d = ((s.move modulus d).1, (s.move modulus d).2.onStreams f) := by
  cases hm : s.machine.move modulus d with
  | error e =>
    have hm' : (s.onStreams f).machine.move modulus d = .error e := hm
    rw [move_of_error hm, move_of_error hm']
  | ok m =>
    have hm' : (s.onStreams f).machine.move modulus d = .ok m := hm
    rw [move_of_ok hm, move_of_ok hm']
    rfl

@[simp] theorem receive_streams (policy : EofPolicy) (x : ReadResult) (s : State) :
    (s.receive policy x).2.streams = s.streams := by
  unfold receive
  cases x.byte? with
  | error f => rfl
  | ok b? =>
    cases b? with
    | some b => exact modifyCell_streams s _
    | none =>
      cases policy with
      | zero => exact modifyCell_streams s _
      | abort | unchanged | other v => rfl

/-! ## The streams -/

theorem write_of_current {s : State} {b : UInt8} (h : s.machine.current = .ok b) :
    s.write = ((s.streams.write b).1, ⟨s.machine, (s.streams.write b).2⟩) := by
  simp only [write, h]

theorem write_of_error {s : State} {e : Error} (h : s.machine.current = .error e) :
    s.write = (.failed e, s) := by
  simp only [write, h]

theorem read_of_flushed {policy : EofPolicy} {s : State} (h : s.streams.flush.1 = .normal) :
    s.read policy =
      receive policy s.streams.flush.2.read.1 ⟨s.machine, s.streams.flush.2.read.2⟩ := by
  unfold read
  dsimp only
  split
  · rename_i e st hf; rw [hf] at h; cases h
  · rename_i st hf; rw [hf]

theorem read_of_flush_failed {policy : EofPolicy} {s : State} {e : Error}
    (h : s.streams.flush.1 = .failed e) :
    s.read policy = (.failed e, ⟨s.machine, s.streams.flush.2⟩) := by
  unfold read
  dsimp only
  split
  · rename_i e' st hf; rw [hf] at h ⊢; cases h; rfl
  · rename_i st hf; rw [hf] at h; cases h

/-! ## The machine -/

theorem modifyCell_samePlace (s : State) (f : UInt8 → UInt8) :
    Machine.SamePlace s.machine (s.modifyCell f).2.machine := by
  cases h : s.machine.index with
  | error e => rw [modifyCell_of_error h]; exact .refl _
  | ok i => rw [modifyCell_of_ok h]; exact .set _ _ _

theorem receive_samePlace (policy : EofPolicy) (x : ReadResult) (m : Machine) (st : Streams) :
    Machine.SamePlace m (receive policy x ⟨m, st⟩).2.machine := by
  unfold receive
  cases x.byte? with
  | error f => exact .refl _
  | ok b? =>
    cases b? with
    | some b => exact modifyCell_samePlace ⟨m, st⟩ _
    | none =>
      cases policy with
      | zero => exact modifyCell_samePlace ⟨m, st⟩ _
      | abort | unchanged | other v => exact .refl _

theorem write_machine (s : State) : s.write.2.machine = s.machine := by
  cases hc : s.machine.current with
  | error e => rw [write_of_error hc]
  | ok b => rw [write_of_current hc]

theorem read_samePlace (policy : EofPolicy) (s : State) :
    Machine.SamePlace s.machine (s.read policy).2.machine := by
  cases hf : s.streams.flush.1 with
  | normal => rw [read_of_flushed hf]; exact receive_samePlace policy _ _ _
  | failed e => rw [read_of_flush_failed hf]; exact .refl _

/-! ## Failures -/

/-- Changing a cell fails only where there is none, and then changes nothing. -/
theorem modifyCell_failed {s : State} {f : UInt8 → UInt8} {e : Error}
    (h : (s.modifyCell f).1 = .failed e) :
    s.machine.index = .error e ∧ (s.modifyCell f).2 = s := by
  cases hi : s.machine.index with
  | error e' =>
    rw [modifyCell_of_error hi] at h ⊢
    cases h
    exact ⟨rfl, rfl⟩
  | ok i =>
    rw [modifyCell_of_ok hi] at h
    cases h

theorem move_failed {s : State} {modulus : Nat} {d : Int} {e : Error}
    (h : (s.move modulus d).1 = .failed e) :
    modulus = 0 ∧ e = .emptyTape ∧ (s.move modulus d).2 = s := by
  cases hm : s.machine.move modulus d with
  | error e' =>
    rw [move_of_error hm] at h ⊢
    cases h
    obtain ⟨hzero, rfl⟩ := Machine.move_error hm
    exact ⟨hzero, rfl, rfl⟩
  | ok m =>
    rw [move_of_ok hm] at h
    cases h

theorem receive_failed {policy : EofPolicy} {x : ReadResult} {s : State} {e : Error}
    (h : (receive policy x s).1 = .failed e) : (receive policy x s).2 = s := by
  unfold receive at h ⊢
  cases hx : x.byte? with
  | error f => rfl
  | ok b? =>
    simp only [hx] at h ⊢
    cases b? with
    | some b => exact (modifyCell_failed h).2
    | none =>
      cases policy with
      | zero => exact (modifyCell_failed h).2
      | abort | unchanged | other v => rfl

theorem read_failed {policy : EofPolicy} {s : State} {e : Error}
    (h : (s.read policy).1 = .failed e) : (s.read policy).2.machine = s.machine := by
  cases hf : s.streams.flush.1 with
  | normal =>
    rw [read_of_flushed hf] at h ⊢
    rw [receive_failed h]
  | failed e' => rw [read_of_flush_failed hf]

end State

namespace Instruction

/-- A step of the pointer to the right or to the left. -/
def IsMove (i : Instruction) : Prop := i = .op .right ∨ i = .op .left

theorem perform_move {i : Instruction} (h : i.IsMove) (r : Rules) (s : State) :
    ∃ d, i.perform r s = s.move r.modulus d := by
  rcases h with rfl | rfl
  · exact ⟨1, rfl⟩
  · exact ⟨-1, rfl⟩

/-- Only a move changes the pointer, and none of the others the length of the tape. -/
theorem perform_samePlace {i : Instruction} (h : ¬ i.IsMove) (r : Rules) (s : State) :
    Machine.SamePlace s.machine (i.perform r s).2.machine := by
  cases i with
  | foreign name => exact .refl _
  | op o =>
    cases o with
    | right => exact absurd (.inl rfl) h
    | left => exact absurd (.inr rfl) h
    | increment | decrement => exact State.modifyCell_samePlace s _
    | write =>
      show Machine.SamePlace s.machine s.write.2.machine
      rw [State.write_machine]
      exact .refl _
    | read => exact State.read_samePlace _ s

/-- A move that succeeds leaves the cells, and the pointer lies below the modulus afterwards; one
that fails leaves the machine. -/
theorem perform_moved {i : Instruction} (h : i.IsMove) (r : Rules) (s : State) :
    (i.perform r s).2.machine.cells = s.machine.cells ∧
      ((i.perform r s).1 = .normal → 0 ≤ (i.perform r s).2.machine.pointer ∧
        (i.perform r s).2.machine.pointer < r.modulus) := by
  obtain ⟨d, hd⟩ := perform_move h r s
  rw [hd]
  cases hm : s.machine.move r.modulus d with
  | error e =>
    rw [State.move_of_error hm]
    exact ⟨rfl, nofun⟩
  | ok m =>
    rw [State.move_of_ok hm]
    obtain ⟨hcells, hpointer⟩ := Machine.move_ok hm
    exact ⟨hcells, fun _ => hpointer⟩

theorem perform_size (r : Rules) (i : Instruction) (s : State) :
    (i.perform r s).2.machine.cells.size = s.machine.cells.size := by
  by_cases h : i.IsMove
  · rw [(perform_moved h r s).1]
  · exact (perform_samePlace h r s).size

/-- An instruction that fails leaves the machine as it was. -/
theorem machine_of_failed {r : Rules} {i : Instruction} {s : State} {e : Error}
    (h : (i.perform r s).1 = .failed e) : (i.perform r s).2.machine = s.machine := by
  cases i with
  | foreign name => rfl
  | op o =>
    cases o with
    | right | left => exact congrArg State.machine (State.move_failed h).2.2
    | increment | decrement => exact congrArg State.machine (State.modifyCell_failed h).2
    | write => exact State.write_machine s
    | read => exact State.read_failed h

/-- The reasons for which an instruction fails in a state. -/
inductive Fails (r : Rules) (s : State) : Instruction → Error → Prop
  | noCell {i : Instruction} {e : Error} : s.machine.index = .error e → Fails r s i e
  | noWrap {i : Instruction} : i.IsMove → r.modulus = 0 → Fails r s i .emptyTape
  | exhausted : r.onEof = .abort → Fails r s (.op .read) (.inputExhausted s.machine.pointer)
  | policy {v : Scalar} : r.onEof = .other v → Fails r s (.op .read) (.unhandledEofPolicy v)
  | foreign {name : String} : Fails r s (.foreign name) (.unhandledInstruction name)
  | fault {i : Instruction} {f : Fault} : Fails r s i (.fault f)

theorem fails_of_receive {r : Rules} {m : Machine} {st st' : Streams} {x : ReadResult} {e : Error}
    (h : (State.receive r.onEof x ⟨m, st'⟩).1 = .failed e) : Fails r ⟨m, st⟩ (.op .read) e := by
  unfold State.receive at h
  split at h
  · cases h
    exact .fault
  · exact .noCell (State.modifyCell_failed h).1
  · split at h
    · rename_i hp
      cases h
      exact .exhausted (s := ⟨m, st⟩) hp
    · exact .noCell (State.modifyCell_failed h).1
    · cases h
    · rename_i v hp
      cases h
      exact .policy hp

theorem fails_of_perform {r : Rules} {i : Instruction} {s : State} {e : Error}
    (h : (i.perform r s).1 = .failed e) : i.Fails r s e := by
  cases i with
  | foreign name =>
    cases h
    exact .foreign
  | op o =>
    cases o with
    | right =>
      obtain ⟨hm, rfl, -⟩ := State.move_failed h
      exact .noWrap (.inl rfl) hm
    | left =>
      obtain ⟨hm, rfl, -⟩ := State.move_failed h
      exact .noWrap (.inr rfl) hm
    | increment | decrement => exact .noCell (State.modifyCell_failed h).1
    | write =>
      have hwrite : s.write.1 = .failed e := h
      cases hc : s.machine.current with
      | error e' =>
        rw [State.write_of_error hc] at hwrite
        cases hwrite
        exact .noCell (Machine.current_eq_error_iff.1 hc)
      | ok b =>
        rw [State.write_of_current hc] at hwrite
        obtain ⟨f, -, -, rfl⟩ :=
          Fault.of_outcome_failed ((Streams.write_outcome _ b).symm.trans hwrite)
        exact .fault
    | read =>
      have hread : (s.read r.onEof).1 = .failed e := h
      cases hf : s.streams.flush.1 with
      | normal =>
        rw [State.read_of_flushed hf] at hread
        exact fails_of_receive hread
      | failed e' =>
        rw [State.read_of_flush_failed hf] at hread
        cases hread
        obtain ⟨f, -, -, rfl⟩ := Fault.of_outcome_failed ((Streams.flush_outcome _).symm.trans hf)
        exact .fault

end Instruction

end ByteTape
