/-
Programs with holes. A hole stands where an instruction could stand: anywhere in a sequence, and in
the body of any loop. Filling a context puts one and the same program into each of its holes.
-/
import ByteTape.Program

namespace ByteTape.Program

/-- A sequence of instructions, loops and holes. -/
inductive Context where
  | nil
  | hole (rest : Context)
  | instr (i : Instruction) (rest : Context)
  | loop (body rest : Context)
  deriving DecidableEq

namespace Context

/-- The context with a program in place of each hole. -/
def fill (p : Program) : Context → Program
  | .nil => .nil
  | .hole rest => p ++ rest.fill p
  | .instr i rest => .instr i (rest.fill p)
  | .loop body rest => .loop (body.fill p) (rest.fill p)

end Context

end ByteTape.Program
