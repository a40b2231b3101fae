/-
The layout of a source in lines: what of each line stands before its comment, and what the
comment is. On it stands the line-wise account of strict reading, `ofLines`, which knows nothing
of scanning: look at what is kept, refuse the first byte that does not belong there, and take the
symbols of the rest. For a text that is read as a source the same is said of its characters, without
a look at the bytes by which they are encoded.
-/
import ByteTape.Text.Pieces
import ByteTape.Token.Lexer

namespace ByteTape.Token

/-! ## Lines and comments -/

/-- What stands before the first adjacent pair of slashes. -/
def code {α : Type} (isSlash : α → Bool) : List α → List α
  | [] => []
  | a :: rest => if isSlash a && rest.head?.any isSlash then [] else a :: code isSlash rest

/-- What stands from the first adjacent pair of slashes on. -/
def comment {α : Type} (isSlash : α → Bool) : List α → List α
  | [] => []
  | a :: rest => if isSlash a && rest.head?.any isSlash then a :: rest else comment isSlash rest

@[simp] theorem code_append_comment {α : Type} (isSlash : α → Bool) (l : List α) :
    code isSlash l ++ comment isSlash l = l := by
  induction l with
  | nil => rfl
  | cons a rest ih =>
    unfold code comment
    split
    · rfl
    · rw [List.cons_append, ih]

/-! ## The line-wise reading -/

/-- The bytes outside comments and line breaks, each with its offset in the source. -/
def kept (source : List UInt8) : List (UInt8 × Nat) :=
  (Text.pieces (·.1 == newline) source.zipIdx).flatMap (code (·.1 == slash))

/-- The bytes outside comments and line breaks. -/
def uncommented (source : List UInt8) : List UInt8 :=
  (Text.pieces (· == newline) source).flatMap (code (· == slash))

/-- The bytes inside comments. -/
def commented (source : List UInt8) : List UInt8 :=
  (Text.pieces (· == newline) source).flatMap (comment (· == slash))

/-- A byte that may stand outside comments. -/
def isPermitted (b : UInt8) : Bool := (ofByte? b).isSome || isBlank b

/-- Strict reading, line by line. -/
def ofLines (source : List UInt8) : Except Error (List Token) :=
  match (kept source).find? (fun k => !isPermitted k.1) with
  | some (b, offset) => .error (.unexpectedByte b offset)
  | none => .ok ((kept source).filterMap (fun k => ofByte? k.1))

/-! ## Texts -/

/-- The blank characters: space, tab, line feed, carriage return, vertical tab, form feed. -/
def blanks : List Char := [' ', '\t', '\n', '\r', '\x0b', '\x0c']

/-- A character that may stand outside comments. -/
def isPermittedChar (c : Char) : Bool := (ofSymbol? c).isSome || blanks.contains c

/-- The characters outside comments and line breaks, each with its place in the text. -/
def keptChars (text : List Char) : List (Char × Nat) :=
  (Text.pieces (·.1 == '\n') text.zipIdx).flatMap (code (·.1 == '/'))

end ByteTape.Token
