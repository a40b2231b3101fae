/-
The operations of the language and the tokens it is written in: a token is an operation or one of
the two loop brackets. Each token has a symbol, the byte that symbol is, and a label it is listed
under. The look-ups `ofByte?`, `ofSymbol?` and `ofLabel?` search the one table `Token.all`, so a
token and its spelling cannot drift apart.
-/
namespace ByteTape

/-- What a symbol other than a bracket does to the tape or the streams. -/
inductive Op where
  | right | left | increment | decrement | write | read
  deriving DecidableEq

/-- A meaningful symbol of a program text. -/
inductive Token where
  | op (o : Op)
  | loopBegin
  | loopEnd
  deriving DecidableEq

namespace Op

/-- The name an operation is listed under. -/
def label : Op → String
  | .right => "IncrementPointer"
  | .left => "DecrementPointer"
  | .increment => "IncrementValue"
  | .decrement => "DecrementValue"
  | .write => "Write"
  | .read => "Read"

end Op

namespace Token

/-- Every token, in the order of the language's own listing. -/
def all : List Token :=
  [.op .right, .op .left, .op .increment, .op .decrement, .op .write, .op .read,
    .loopBegin, .loopEnd]

/-- The character a token is written as. -/
def symbol : Token → Char
  | .op .right => '>'
  | .op .left => '<'
  | .op .increment => '+'
  | .op .decrement => '-'
  | .op .write => '.'
  | .op .read => ','
  | .loopBegin => '['
  | .loopEnd => ']'

/-- The byte a token is written as; every symbol is ASCII, so it is the code point. -/
def byte : Token → UInt8
  | .op .right => 0x3e
  | .op .left => 0x3c
  | .op .increment => 0x2b
  | .op .decrement => 0x2d
  | .op .write => 0x2e
  | .op .read => 0x2c
  | .loopBegin => 0x5b
  | .loopEnd => 0x5d

/-- The label under which a token is listed. -/
def label : Token → String
  | .op .right => "INCREMENT_POINTER"
  | .op .left => "DECREMENT_POINTER"
  | .op .increment => "INCREMENT_VALUE"
  | .op .decrement => "DECREMENT_VALUE"
  | .op .write => "WRITE"
  | .op .read => "READ"
  | .loopBegin => "LOOP_BEGIN"
  | .loopEnd => "LOOP_END"

/-- The token written as a byte, if the byte is a symbol. -/
def ofByte? (b : UInt8) : Option Token := all.find? (·.byte == b)

/-- The token written as a character, if the character is a symbol. -/
def ofSymbol? (c : Char) : Option Token := all.find? (·.symbol == c)

/-- The token listed under a label. -/
def ofLabel? (s : String) : Option Token := all.find? (·.label == s)

/-! ## Spelling -/

theorem mem_all (t : Token) : t ∈ all := by
  cases t with
  | op o => cases o <;> decide
  | loopBegin | loopEnd => decide

/-- A symbol's byte is its code point. -/
theorem toNat_byte (t : Token) : t.byte.toNat = t.symbol.toNat := by
  cases t with
  | op o => cases o <;> rfl
  | loopBegin | loopEnd => rfl

@[simp] theorem ofByte?_byte (t : Token) : ofByte? t.byte = some t := by
  cases t with
  | op o => cases o <;> decide
  | loopBegin | loopEnd => decide

theorem ofByte?_eq_some_iff {b : UInt8} {t : Token} : ofByte? b = some t ↔ b = t.byte := by
  constructor
  · intro h
    have := List.find?_some h
    exact (eq_of_beq this).symm
  · rintro rfl; exact ofByte?_byte t

theorem byte_inj {t u : Token} (h : t.byte = u.byte) : t = u := by
  have := ofByte?_byte u
  rw [← h, ofByte?_byte] at this
  exact Option.some.inj this

@[simp] theorem ofSymbol?_symbol (t : Token) : ofSymbol? t.symbol = some t := by
  cases t with
  | op o => cases o <;> decide
  | loopBegin | loopEnd => decide

theorem ofSymbol?_eq_some_iff {c : Char} {t : Token} : ofSymbol? c = some t ↔ c = t.symbol := by
  constructor
  · intro h
    have := List.find?_some h
    exact (eq_of_beq this).symm
  · rintro rfl; exact ofSymbol?_symbol t

end Token

end ByteTape
