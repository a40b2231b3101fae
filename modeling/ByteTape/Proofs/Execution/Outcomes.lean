/-
The outcomes of a run. A program of the operations of the language alone, run on a machine on which
it is safe and under settings whose choices are known, ends normally, or for want of input, or at a
fault that a stream raised, and in no other way. No run at all fails with an error that lies in the
text of a program.
-/
import ByteTape.Proofs.Execution.Refinement
import ByteTape.Proofs.Execution.TapeSafety

namespace ByteTape

variable {r : Rules} {s s' : State} {o : Outcome}

theorem Machine.not_isSyntax_of_index {m : Machine} {e : Error} (h : m.index = .error e) :
    ¬ e.isSyntax := by
  rcases index_error h with rfl | rfl <;> decide

theorem Instruction.Fails.not_isSyntax {i : Instruction} {e : Error} (hf : i.Fails r s e) :
    ¬ e.isSyntax := by
  cases hf with
  | noCell hindex => exact Machine.not_isSyntax_of_index hindex
  | noWrap | exhausted | policy | foreign | fault => exact nofun

/-- Whatever is run, an error of the run does not lie in the text of a program. -/
theorem execute_not_isSyntax {fuel : Nat} {settings : Settings} {p : Program} {e : Error}
    (h : execute fuel settings p s = some (.failed e, s')) : ¬ e.isSyntax := by
  obtain ⟨v, -, ho, -⟩ | ⟨modulus, done, -, hdone⟩ := execute_reaches h
  · cases ho
    exact nofun
  · cases hdone with
    | @ended _ c₁ _ _ _ hs =>
      obtain ⟨i, e', -, ho, hperform⟩ | ⟨-, ho | ⟨e', ho, hcurrent⟩⟩ := Config.step_ended hs
      · cases ho
        exact (Instruction.fails_of_perform (by rw [hperform])).not_isSyntax
      · cases ho
      · cases ho
        exact Machine.not_isSyntax_of_index (Machine.current_eq_error_iff.1 hcurrent)

end ByteTape
