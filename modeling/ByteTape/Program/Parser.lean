/-
Arranging tokens into a program. One pass from left to right keeps the sequence being built, in
reverse, and below it a stack of the sequences that open loops interrupted. A loop end closes the
innermost open loop; at the end of the tokens the stack has to be empty, and otherwise the loop at
its bottom is the outermost one that is never closed.
-/
import ByteTape.Error
import ByteTape.Program

namespace ByteTape.Program

/-- A loop whose end has not been met: where it began, and what stood before it in the sequence
around it, in reverse. -/
structure OpenLoop where
  offset : Nat
  before : Program
  deriving DecidableEq

/-- Arranges the tokens from `offset` on, inside the open loops, innermost first, after the
instructions `done` of the innermost sequence, in reverse. -/
def arrange (offset : Nat) (stack : List OpenLoop) (done : Program) :
    List Token → Except Error Program
  | [] => match stack.getLast? with
    | some outermost => .error (.unmatchedBegin outermost.offset)
    | none => .ok done.reverse
  | .op o :: rest => arrange (offset + 1) stack (.instr (.op o) done) rest
  | .loopBegin :: rest => arrange (offset + 1) (⟨offset, done⟩ :: stack) .nil rest
  | .loopEnd :: rest => match stack with
    | [] => .error (.unmatchedEnd offset)
    | o :: outer => arrange (offset + 1) outer (.loop done.reverse o.before) rest

/-- The program that a sequence of tokens spells. -/
def ofTokens (ts : List Token) : Except Error Program := arrange 0 [] .nil ts

/-- Loop begins less loop ends. -/
def balance (ts : List Token) : Int :=
  (ts.count .loopBegin : Int) - (ts.count .loopEnd : Int)

end ByteTape.Program
