/-
The written form of a program: a tuple of its instructions, each as its name with an empty pair of
parentheses, and a loop with the tuple of its body.
-/
import ByteTape.Program
import ByteTape.Text.Quoted

namespace ByteTape

/-- An instruction as text. -/
def Instruction.text (i : Instruction) : List Char := i.label.toList ++ ['(', ')']

namespace Program

/-- The text of each top-level instruction and loop. -/
def items : Program → List (List Char)
  | .nil => []
  | .instr i rest => i.text :: rest.items
  | .loop body rest =>
    ("Loop(body=".toList ++ Text.tuple body.items ++ [')']) :: rest.items

/-- A program as text. -/
def text (p : Program) : String := String.ofList (Text.tuple p.items)

end Program

end ByteTape
