/-
Reading a program back from its written form. The written form holds a word for every token: that of
an operation, the beginning of a loop up to the tuple of its body, and the two parentheses that close
it. Commas, blanks and the outermost parentheses belong to no word and are passed over. What has been
read counts only if it is written in just this way.
-/
import ByteTape.Program.Parser
import ByteTape.Program.Text

namespace ByteTape

namespace Token

/-- The word that stands for a token in the written form of a program. -/
def word : Token → List Char
  | .op o => (Instruction.op o).text
  | .loopBegin => "Loop(body=(".toList
  | .loopEnd => "))".toList

/-- The token whose word stands at the beginning of a text. -/
def wordAt? (cs : List Char) : Option Token := all.find? fun t => t.word.isPrefixOf cs

/-- The tokens whose words stand in a text, after `skip` characters that are passed over. A character
at which no word begins is passed over too. -/
def inText (skip : Nat) : List Char → List Token
  | [] => []
  | c :: cs => match skip with
    | k + 1 => inText k cs
    | 0 => match wordAt? (c :: cs) with
      | some t => t :: inText (t.word.length - 1) cs
      | none => inText 0 cs

end Token

/-- The program with this written form. -/
def Program.ofText? (s : String) : Option Program :=
  match Program.ofTokens (Token.inText 0 s.toList) with
  | .error _ => none
  | .ok p => if p.text = s then some p else none

end ByteTape
