/-
Runs stay on their tape. The tape keeps its length, and from the first completed move on the
pointer lies below the modulus. Where the modulus is at most the length of the tape and the run
begins with the pointer on a cell, the pointer is on a cell at every stage, and neither an
instruction nor the guard of a loop fails for want of one.
-/
import ByteTape.Proofs.Execution.Operation
import ByteTape.Proofs.Execution.Reachable
import ByteTape.Proofs.Interpret
import ByteTape.Proofs.Program.Loading

namespace ByteTape

variable {r : Rules}

/-- The pointer means a cell, and wherever a move leads, it means one again. -/
structure Machine.Safe (modulus : Nat) (m : Machine) : Prop where
  pos : 1 ≤ modulus
  fits : modulus ≤ m.cells.size
  within : m.Within

/-! ## Single instructions -/

namespace Instruction

theorem perform_safe {i : Instruction} {s : State} (h : s.machine.Safe r.modulus) :
    (i.perform r s).2.machine.Safe r.modulus := by
  have hsize := perform_size r i s
  refine ⟨h.pos, hsize ▸ h.fits, ?_⟩
  by_cases hi : i.IsMove
  · cases ho : (i.perform r s).1 with
    | normal =>
      obtain ⟨hlow, hhigh⟩ := (perform_moved hi r s).2 ho
      have hfits := h.fits
      unfold Machine.Within
      rw [hsize]
      omega
    | failed e =>
      -- a move fails only where there is nothing to wrap round
      obtain ⟨d, hd⟩ := perform_move hi r s
      rw [hd] at ho
      have hpos := h.pos
      have hzero := (State.move_failed ho).1
      omega
  · exact (perform_samePlace hi r s).within h.within

theorem Fails.not_offTape {i : Instruction} {s : State} {e : Error} (hf : i.Fails r s e)
    (h : s.machine.Safe r.modulus) : ¬ e.OffTape := by
  cases hf with
  | noCell hindex => exact absurd hindex (h.within.index_ne_error _)
  | noWrap _ hzero =>
    have hpos := h.pos
    omega
  | exhausted | policy | foreign | fault => exact id

end Instruction

/-! ## Whole runs -/

namespace Reaches

variable {c : Config} {done : List Instruction} {g : Progress}

theorem size (h : Reaches r c done g) : g.state.machine.cells.size = c.state.machine.cells.size :=
  h.invariant (P := fun s => s.machine.cells.size = c.state.machine.cells.size)
    (fun i s hs => (Instruction.perform_size r i s).trans hs) rfl

/-- Once a move has been completed, the pointer lies below the modulus. -/
theorem pointer_of_moved (h : Reaches r c done g) (hmoved : ∃ i ∈ done, i.IsMove) :
    0 ≤ g.state.machine.pointer ∧ g.state.machine.pointer < r.modulus := by
  induction h with
  | start =>
    obtain ⟨i, hi, -⟩ := hmoved
    cases hi
  | @step done c₁ c₂ _ hs ih =>
    obtain ⟨i, hnext, hperform⟩ | ⟨hnext, hstate⟩ := Config.step_running hs
    · rw [hnext, Option.toList_some] at hmoved
      by_cases hi : i.IsMove
      · have := (Instruction.perform_moved hi r c₁.state).2
        rw [hperform] at this
        exact this rfl
      · -- the move was completed earlier, and this instruction leaves the pointer
        have hplace := Instruction.perform_samePlace hi r c₁.state
        rw [hperform] at hplace
        obtain ⟨j, hj, hmove⟩ := hmoved
        rcases List.mem_append.1 hj with hj | hj
        · show 0 ≤ c₂.state.machine.pointer ∧ c₂.state.machine.pointer < r.modulus
          rw [hplace.pointer]
          exact ih ⟨j, hj, hmove⟩
        · cases List.mem_singleton.1 hj
          exact absurd hmove hi
    · rw [hnext, Option.toList_none, List.append_nil] at hmoved
      show 0 ≤ c₂.state.machine.pointer ∧ c₂.state.machine.pointer < r.modulus
      rw [hstate]
      exact ih hmoved
  | @ended done c₁ o s _ hs ih =>
    have hmachine : s.machine = c₁.state.machine := by
      obtain ⟨i, e, -, -, hperform⟩ | ⟨rfl, -⟩ := Config.step_ended hs
      · have := Instruction.machine_of_failed (r := r) (i := i) (s := c₁.state) (e := e)
        rw [hperform] at this
        exact this rfl
      · rfl
    show 0 ≤ s.machine.pointer ∧ s.machine.pointer < r.modulus
    rw [hmachine]
    exact ih hmoved

theorem safe (h : Reaches r c done g) (hc : c.state.machine.Safe r.modulus) :
    g.state.machine.Safe r.modulus :=
  h.invariant (P := fun s => s.machine.Safe r.modulus) (fun _ _ => Instruction.perform_safe) hc

/-- A run that is safe at its beginning does not fail for want of a cell. -/
theorem not_offTape {e : Error} {s : State} (h : Reaches r c done (.ended (.failed e) s))
    (hc : c.state.machine.Safe r.modulus) : ¬ e.OffTape := by
  cases h with
  | @ended _ c₁ _ _ h hs =>
    have hsafe : c₁.state.machine.Safe r.modulus := h.safe hc
    obtain ⟨i, e', -, ho, hperform⟩ | ⟨-, ho | ⟨e', ho, hcurrent⟩⟩ := Config.step_ended hs
    · cases ho
      exact (Instruction.fails_of_perform (by rw [hperform])).not_offTape hsafe
    · cases ho
    · exact absurd (Machine.current_eq_error_iff.1 hcurrent) (hsafe.within.index_ne_error _)

end Reaches

/-! ## Executions -/

/-- An execution that is safe at its beginning, whatever its settings wrap the pointer round, does
not fail for want of a cell. -/
theorem execute_not_offTape {fuel : Nat} {settings : Settings} {p : Program} {s s' : State}
    {e : Error} (h : execute fuel settings p s = some (.failed e, s'))
    (hs : ∀ modulus, settings.wrap.modulus s.machine.cells.size = .ok modulus →
      s.machine.Safe modulus) : ¬ e.OffTape := by
  obtain ⟨v, -, ho, -⟩ | ⟨modulus, done, hm, hdone⟩ := execute_reaches h
  · cases ho
    exact id
  · exact hdone.not_offTape (hs modulus hm)

/-- A new machine is safe, whether the pointer is wrapped round 256 cells or round its tape. -/
theorem Machine.safe_fresh {wrap : PointerWrap} {modulus : Nat}
    (h : wrap.modulus (fresh defaultSize).cells.size = .ok modulus) :
    (fresh defaultSize).Safe modulus := by
  have hsize : (fresh defaultSize).cells.size = 30000 := size_fresh 30000
  have hwithin : (fresh defaultSize).Within := fresh_within (by decide)
  cases wrap with
  | byte =>
    cases h
    exact ⟨by decide, by rw [hsize]; decide, hwithin⟩
  | tape =>
    cases h
    exact ⟨by rw [hsize]; decide, le_refl _, hwithin⟩
  | other v => cases h

theorem interpret_not_offTape {fuel : Nat} {settings : Settings} {source : List UInt8}
    {st st' : Streams} {e : Error} (h : interpret fuel settings source st = some (.failed e, st')) :
    ¬ e.OffTape := by
  obtain ⟨hload, -⟩ | ⟨p, s₁, hx⟩ | ⟨f, rfl⟩ := interpret_failed h
  · exact Error.not_offTape_of_isSyntax (Program.isSyntax_of_load hload)
  · exact execute_not_offTape hx fun _ => Machine.safe_fresh
  · exact id

/-- Whatever is run, round 256 cells or round the tape: at every stage the tape is as long as at the
beginning and each of its cells is a byte, and from the first completed move on the pointer lies
below the modulus. Where the modulus is at least 1 and at most the length of the tape and the
pointer means a cell at the beginning, it means a cell at every stage, and the run does not fail
for want of one or of something to wrap round. So interpreting a source never does. -/
theorem runs_stay_on_tape :
    (∀ (settings : Settings) (p : Program) (s : State) (modulus : Nat) (done : List Instruction)
      (g : Progress), settings.wrap.modulus s.machine.cells.size = .ok modulus →
      Reaches ⟨modulus, settings.onEof⟩ (.start p s) done g →
        g.state.machine.cells.size = s.machine.cells.size ∧
        (∀ b ∈ g.state.machine.cells, b.toNat ≤ 255) ∧
        ((∃ i ∈ done, i.IsMove) →
          0 ≤ g.state.machine.pointer ∧ g.state.machine.pointer < modulus) ∧
        (1 ≤ modulus → modulus ≤ s.machine.cells.size →
          -(s.machine.cells.size : Int) ≤ s.machine.pointer →
          s.machine.pointer < s.machine.cells.size →
            (∃ i, g.state.machine.index = .ok i) ∧
              ∀ e s', g = .ended (.failed e) s' → ¬ e.OffTape)) ∧
    (∀ (fuel : Nat) (settings : Settings) (p : Program) (s s' : State) (modulus : Nat) (e : Error),
      settings.wrap.modulus s.machine.cells.size = .ok modulus →
      1 ≤ modulus → modulus ≤ s.machine.cells.size →
      -(s.machine.cells.size : Int) ≤ s.machine.pointer →
      s.machine.pointer < s.machine.cells.size →
      execute fuel settings p s = some (.failed e, s') → ¬ e.OffTape) ∧
    (∀ (fuel : Nat) (settings : Settings) (source : List UInt8) (st st' : Streams) (e : Error),
      interpret fuel settings source st = some (.failed e, st') → ¬ e.OffTape) := by
  refine ⟨fun settings p s modulus done g _ h => ⟨h.size, ?_, h.pointer_of_moved, ?_⟩, ?_, ?_⟩
  · intro b _
    exact Nat.le_of_lt_succ b.toNat_lt
  · intro hpos hfits hlow hhigh
    have hsafe : s.machine.Safe modulus := ⟨hpos, hfits, hlow, hhigh⟩
    refine ⟨Machine.index_eq_ok_iff.2 (h.safe hsafe).within, ?_⟩
    rintro e s' rfl
    exact h.not_offTape hsafe
  · intro fuel settings p s s' modulus e hm hpos hfits hlow hhigh h
    refine execute_not_offTape h fun modulus' hm' => ?_
    rw [hm] at hm'
    cases hm'
    exact ⟨hpos, hfits, hlow, hhigh⟩
  · intro fuel settings source st st' e h
    exact interpret_not_offTape h

/-- On three cells, with the pointer on the last one as -1, the program `<+[,]` comes to cell 1, and
fails there, but only because there is nothing to read; so does `,` on a new machine. -/
theorem runs_stay_on_tape_from_the_end :
    let p : Program := .instr (.op .left) (.instr (.op .increment)
      (.loop (.instr (.op .read) .nil) .nil))
    let s : State := ⟨⟨#[0, 0, 0], -1⟩, {}⟩
    (∃ g, Reaches ⟨3, .abort⟩ (.start p s) [.op .left, .op .increment] g ∧
      g.state.machine.pointer = 1 ∧ g.state.machine.cells = #[0, 1, 0] ∧
      (0 ≤ g.state.machine.pointer ∧ g.state.machine.pointer < 3) ∧
      ∃ i, g.state.machine.index = .ok i) ∧
    (execute 5 { wrap := .tape } p s).map (·.1) = some (.failed (.inputExhausted 1)) ∧
    (interpret 1 {} [0x2c] {}).map (·.1) = some (.failed (.inputExhausted 0)) ∧
    ¬ (Error.inputExhausted 1).OffTape ∧ ¬ (Error.inputExhausted 0).OffTape := by
  intro p s
  obtain ⟨hstages, hends, hinterpret⟩ := runs_stay_on_tape
  have hleft : (Config.start p s).step ⟨3, .abort⟩ =
      .running ⟨[⟨none, .instr (.op .increment) (.loop (.instr (.op .read) .nil) .nil)⟩],
        ⟨⟨#[0, 0, 0], 1⟩, {}⟩⟩ := rfl
  have hincrement : Config.step ⟨3, .abort⟩
      ⟨[⟨none, .instr (.op .increment) (.loop (.instr (.op .read) .nil) .nil)⟩],
        ⟨⟨#[0, 0, 0], 1⟩, {}⟩⟩ =
      .running ⟨[⟨none, .loop (.instr (.op .read) .nil) .nil⟩], ⟨⟨#[0, 1, 0], 1⟩, {}⟩⟩ := rfl
  have hreach : Reaches ⟨3, .abort⟩ (.start p s) [.op .left, .op .increment] _ :=
    (Reaches.start.step hleft).step hincrement
  obtain ⟨-, -, hmoved, hsafe⟩ := hstages { wrap := .tape } p s 3 _ _ rfl hreach
  refine ⟨⟨_, hreach, rfl, rfl, hmoved ⟨.op .left, by decide, .inr rfl⟩,
    (hsafe (by decide) (by decide) (by decide) (by decide)).1⟩, rfl, rfl, ?_, ?_⟩
  · exact hends 5 { wrap := .tape } p s _ 3 _ rfl (by decide) (by decide) (by decide)
      (by decide) rfl
  · exact hinterpret 1 {} [0x2c] {} _ _ rfl

end ByteTape
