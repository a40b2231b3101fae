/-
Errors built by hand. A caller may build an error of any kind that the interpreter defines for
itself, from whatever values: they are told as they are and kept as they are. Only their number
has to be right, and where a byte is shown it has to be one.
-/
import ByteTape.Error

namespace ByteTape

/-- The kinds of error that say something about the values they are built from. -/
inductive ErrorKind where
  | unexpectedByte
  | mismatched
  | unmatchedEnd
  | unmatchedBegin
  | inputExhausted
  deriving DecidableEq

namespace ErrorKind

/-- Every kind. -/
def all : List ErrorKind :=
  [.unexpectedByte, .mismatched, .unmatchedEnd, .unmatchedBegin, .inputExhausted]

/-- The name of a kind. -/
def name : ErrorKind → String
  | .unexpectedByte => "BrainfuckSyntaxError"
  | .mismatched => "MismatchedParentheses"
  | .unmatchedEnd => "UnmatchedLoopEnd"
  | .unmatchedBegin => "UnmatchedLoopBegin"
  | .inputExhausted => "InputExhausted"

/-- The kind of a name. -/
def ofName? (s : String) : Option ErrorKind := all.find? (·.name == s)

/-- The families of a kind. -/
def families : ErrorKind → List Family
  | .unexpectedByte => [.interpreter, .value]
  | .mismatched | .unmatchedEnd | .unmatchedBegin => [.interpreter, .brackets, .value]
  | .inputExhausted => [.interpreter, .endOfInput]

/-- The names of the values that a kind takes, in order. -/
def takes : ErrorKind → List String
  | .unexpectedByte => ["byte", "offset"]
  | .mismatched => ["offset", "message"]
  | .unmatchedEnd | .unmatchedBegin => ["offset"]
  | .inputExhausted => ["pointer"]

end ErrorKind

/-- An error built by hand: what it says, and the values it keeps, by their names. -/
structure Handmade where
  kind : ErrorKind
  message : String
  kept : List (String × Scalar)
  deriving DecidableEq

namespace Handmade

/-- The byte that a value is. -/
def byteOf (v : Scalar) : Except Error UInt8 :=
  match v.toInt? with
  | none => .error (.notAnInteger v)
  | some n => match byteOf? n with
    | none => .error .notInBytes
    | some b => .ok b

/-- Why values cannot be those that a kind takes: there are too few of them, or too many. -/
def miscounted (kind : ErrorKind) (values : List Scalar) : Error :=
  if values.length < kind.takes.length then
    .valuesMissing kind.name (kind.takes.drop values.length)
  else .valuesLeftOver kind.name kind.takes.length values.length

/-- Builds an error of a kind from values. -/
def build (kind : ErrorKind) (values : List Scalar) : Except Error Handmade :=
  match kind, values with
  | .unexpectedByte, [b, o] => (byteOf b).map fun byte =>
    ⟨kind, Error.refusedByte byte o.plain, [("byte", b), ("offset", o)]⟩
  | .mismatched, [o, d] => .ok ⟨kind, d.plain, [("offset", o)]⟩
  | .unmatchedEnd, [o] => .ok ⟨kind, Error.strayEnd o.plain, [("offset", o)]⟩
  | .unmatchedBegin, [o] => .ok ⟨kind, Error.strayBegin o.plain, [("offset", o)]⟩
  | .inputExhausted, [p] => .ok ⟨kind, Error.nothingRead p.plain, [("pointer", p)]⟩
  | kind, values => .error (miscounted kind values)

end Handmade

end ByteTape
