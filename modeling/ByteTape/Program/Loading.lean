/-
From a source, or from tokens by their labels, to a program, with what is logged on the way: a
record when the source has been cut into tokens, and one when the tokens have been arranged. A
step that fails leaves no record, and the records made before it stay.
-/
import ByteTape.Log
import ByteTape.Program.Parser
import ByteTape.Token.Lexer

namespace ByteTape

/-- A result and the records made in reaching it. -/
structure Logged (α : Type) where
  result : Except Error α
  log : List LogRecord

/-- Cuts a source into tokens. -/
def Token.load (strict : Bool) (source : List UInt8) : Logged (List Token) :=
  match Token.lex strict source with
  | .error e => ⟨.error e, []⟩
  | .ok ts => ⟨.ok ts, [.lexed ts.length source.length strict]⟩

/-- Arranges tokens into a program. -/
def Program.loadTokens (ts : List Token) : Logged Program :=
  match Program.ofTokens ts with
  | .error e => ⟨.error e, []⟩
  | .ok p => ⟨.ok p, [.parsed p.length]⟩

/-- Arranges the tokens listed under labels. Each label is looked up when its token is wanted: a
loop end with no open loop before an unknown label is met first, a loop that is never closed
would only be missed after it. -/
def Program.loadLabels (labels : List String) : Logged Program :=
  let ts := Token.ofLabels labels
  match Token.unknownLabel? labels with
  | none => Program.loadTokens ts
  | some label => match Program.ofTokens ts with
    | .error (.unmatchedEnd offset) => ⟨.error (.unmatchedEnd offset), []⟩
    | _ => ⟨.error (.unknownLabel label), []⟩

/-- The program of a source. -/
def Program.load (strict : Bool) (source : List UInt8) : Logged Program :=
  let cut := Token.load strict source
  match cut.result with
  | .error e => ⟨.error e, cut.log⟩
  | .ok ts =>
    let arranged := Program.loadTokens ts
    ⟨arranged.result, cut.log ++ arranged.log⟩

/-- The programs of two sources, the first one first. -/
def Program.loadBoth (a b : List UInt8) : Logged (Program × Program) :=
  let first := Program.load false a
  match first.result with
  | .error e => ⟨.error e, first.log⟩
  | .ok p =>
    let second := Program.load false b
    ⟨second.result.map fun q => (p, q), first.log ++ second.log⟩

end ByteTape
