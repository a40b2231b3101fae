/-
Every way in which a call of the library can fail, and what is said of each. An offset counts
bytes or tokens from the start; a pointer is an integer of any size, since a machine may be given
any.
-/
import ByteTape.Fault
import ByteTape.Scalar

namespace ByteTape

/-- A byte, if the integer is one. -/
def byteOf? (v : Int) : Option UInt8 :=
  if 0 ≤ v ∧ v < 256 then some (UInt8.ofNat v.toNat) else none

/-- Why a call failed. -/
inductive Error where
  /-- strict reading met a byte that is neither a symbol, nor blank, nor in a comment -/
  | unexpectedByte (byte : UInt8) (offset : Nat)
  /-- a loop end, the token at this offset, with no open loop -/
  | unmatchedEnd (offset : Nat)
  /-- a loop begin, the token at this offset, that is never closed -/
  | unmatchedBegin (offset : Nat)
  /-- an integer that is no token's byte -/
  | notAToken (value : Int)
  /-- a label under which no token is listed -/
  | unknownLabel (label : String)
  /-- an integer in a source that is no byte -/
  | notInBytes
  /-- a value where an integer is wanted -/
  | notAnInteger (v : Scalar)
  /-- an integer for a cell that is no byte -/
  | notAByte
  /-- a negative number of cells -/
  | negativeCount
  /-- a number of cells too large, or too far below zero, to be a number of cells at all -/
  | countTooWide
  | unknownWrap (v : Scalar)
  | unknownEofPolicy (v : Scalar)
  | unhandledWrap (v : Scalar)
  | unhandledEofPolicy (v : Scalar)
  | unhandledInstruction (name : String)
  /-- the pointer means no cell of the tape -/
  | outsideTape
  /-- the pointer is too large a number to mean a cell of any tape -/
  | pointerTooWide
  /-- a move on a tape of no cells, round which no pointer can be wrapped -/
  | emptyTape
  /-- a read past the end of the input, with the pointer at that moment -/
  | inputExhausted (pointer : Int)
  /-- no program is kept under this name -/
  | unknownSlot (name : String)
  /-- a file name that holds a NUL character -/
  | embeddedNul
  /-- code that is no text -/
  | codeNotText
  /-- an error of this kind cannot be built: the values of these names are missing -/
  | valuesMissing (kind : String) (names : List String)
  /-- an error of this kind cannot be built: it takes fewer values than are given -/
  | valuesLeftOver (kind : String) (taken given : Nat)
  /-- what a stream raised -/
  | fault (f : Fault)
  deriving DecidableEq

namespace Error

/-! ## Messages -/

/-- What is said of a byte that strict reading refuses. -/
def refusedByte (b : UInt8) (offset : String) : String :=
  s!"Unexpected byte {Text.quoteByte b} at offset {offset}"

/-- What is said of a loop end with no open loop. -/
def strayEnd (offset : String) : String := s!"Loop ending at {offset} has no beginning"

/-- What is said of a loop begin that is never closed. -/
def strayBegin (offset : String) : String := s!"Loop starting at {offset} has no matching ending"

/-- What is said of a read past the end of the input. -/
def nothingRead (pointer : String) : String :=
  s!"Input exhausted while reading into cell {pointer}"

/-- What an error says. -/
def message : Error → String
  | .unexpectedByte b o => refusedByte b (toString o)
  | .unmatchedEnd o => strayEnd (toString o)
  | .unmatchedBegin o => strayBegin (toString o)
  | .notAToken v => s!"{v} is not a valid Token"
  | .notInBytes => "bytes must be in range(0, 256)"
  | .notAnInteger v => s!"'{v.kindName}' object cannot be interpreted as an integer"
  | .notAByte => "byte must be in range(0, 256)"
  | .negativeCount => "negative count"
  | .countTooWide => "cannot fit 'int' into an index-sized integer"
  | .unknownWrap v => s!"Unknown pointer_wrap {v.quoted}, expected one of ('byte', 'tape')"
  | .unknownEofPolicy v =>
    s!"Unknown on_eof {v.quoted}, expected one of ('abort', 'zero', 'unchanged')"
  | .unhandledWrap v => s!"Unhandled pointer_wrap {v.quoted}"
  | .unhandledEofPolicy v => s!"Unhandled on_eof {v.quoted}"
  | .unhandledInstruction name => s!"Unhandled {name}"
  | .outsideTape => "bytearray index out of range"
  | .pointerTooWide => "cannot fit 'int' into an index-sized integer"
  | .emptyTape => "integer modulo by zero"
  | .inputExhausted p => nothingRead (toString p)
  | .unknownSlot name | .unknownLabel name => Text.quote name
  | .embeddedNul => "embedded null byte"
  | .codeNotText => "'list' object has no attribute 'encode'"
  | .valuesMissing kind names =>
    let plural := if names.length = 1 then "" else "s"
    let quoted := " and ".intercalate (names.map Text.quote)
    s!"{kind}.__init__() missing {names.length} required positional argument{plural}: {quoted}"
  | .valuesLeftOver kind taken given =>
    s!"{kind}.__init__() takes {taken + 1} positional arguments but {given + 1} were given"
  | .fault f => f.message

/-- An error that lies in the text of a program. -/
def isSyntax : Error → Bool
  | .unexpectedByte _ _ | .unmatchedEnd _ | .unmatchedBegin _ => true
  | _ => false

end Error

end ByteTape
