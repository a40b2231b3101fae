/-
What a program means, by the structure of the program and without a stack: a sequence runs from
left to right, a loop does nothing when the current cell is zero and otherwise runs its body and
then itself again, and an error ends everything. A run that goes on for ever is one that has no
derivation.
-/
import ByteTape.Execution.Operation

namespace ByteTape

/-- `Runs r p s o s'`: the program `p`, begun in state `s`, ends with outcome `o` in state `s'`. -/
inductive Runs (r : Rules) : Program → State → Outcome → State → Prop
  | nil {s : State} : Runs r .nil s .normal s
  | instr {i : Instruction} {rest : Program} {s s₁ s₂ : State} {o : Outcome} :
      i.perform r s = (.normal, s₁) → Runs r rest s₁ o s₂ → Runs r (.instr i rest) s o s₂
  | instrFailed {i : Instruction} {rest : Program} {s s₁ : State} {e : Error} :
      i.perform r s = (.failed e, s₁) → Runs r (.instr i rest) s (.failed e) s₁
  | guardFailed {body rest : Program} {s : State} {e : Error} :
      s.machine.current = .error e → Runs r (.loop body rest) s (.failed e) s
  | loopDone {body rest : Program} {s s₁ : State} {o : Outcome} :
      s.machine.current = .ok 0 → Runs r rest s o s₁ → Runs r (.loop body rest) s o s₁
  | bodyFailed {body rest : Program} {s s₁ : State} {b : UInt8} {e : Error} :
      s.machine.current = .ok b → b ≠ 0 → Runs r body s (.failed e) s₁ →
        Runs r (.loop body rest) s (.failed e) s₁
  | loopAgain {body rest : Program} {s s₁ s₂ : State} {b : UInt8} {o : Outcome} :
      s.machine.current = .ok b → b ≠ 0 → Runs r body s .normal s₁ →
        Runs r (.loop body rest) s₁ o s₂ → Runs r (.loop body rest) s o s₂

/-- What executing a program under settings comes to: a wrap that is not known is an error before
anything is run, and otherwise the program runs under the rules that the settings stand for. -/
inductive Yields (settings : Settings) (p : Program) (s : State) : Outcome → State → Prop
  | unhandled {e : Error} :
      settings.wrap.modulus s.machine.cells.size = .error e → Yields settings p s (.failed e) s
  | ran {modulus : Nat} {o : Outcome} {s' : State} :
      settings.wrap.modulus s.machine.cells.size = .ok modulus →
        Runs ⟨modulus, settings.onEof⟩ p s o s' → Yields settings p s o s'

end ByteTape
