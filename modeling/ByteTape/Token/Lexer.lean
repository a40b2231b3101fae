/-
Cutting a source into tokens. The permissive reading keeps the symbols and takes every other byte
for a comment. The strict reading allows between symbols only blanks and comments that run from
two slashes to the end of the line, and refuses the first byte that is neither. Tokens may also be
given by the integers that are their bytes, or by their labels.
-/
import ByteTape.Error
import ByteTape.Token

namespace ByteTape.Token

def newline : UInt8 := 0x0a

def slash : UInt8 := 0x2f

/-- A blank byte: space, tab, line feed, vertical tab, form feed, carriage return. -/
def isBlank (b : UInt8) : Bool := b = 0x20 ∨ (0x09 ≤ b ∧ b ≤ 0x0d)

/-- The tokens of a source in which every byte that is no symbol is a comment. -/
def permissive (source : List UInt8) : List Token := source.filterMap ofByte?

/-- Strict reading from the byte at `offset` on, inside a comment or not, with the tokens found so
far in reverse. The second slash of a pair belongs to the comment, the line break that ends it
does not. -/
def scan (offset : Nat) (inComment : Bool) (found : List Token) :
    List UInt8 → Except Error (List Token)
  | [] => .ok found.reverse
  | b :: rest =>
    if inComment then scan (offset + 1) (b != newline) found rest
    else match ofByte? b with
      | some t => scan (offset + 1) false (t :: found) rest
      | none =>
        if b = slash ∧ rest.head? = some slash then scan (offset + 1) true found rest
        else if isBlank b then scan (offset + 1) false found rest
        else .error (.unexpectedByte b offset)

/-- The tokens of a source read strictly. -/
def strict (source : List UInt8) : Except Error (List Token) := scan 0 false [] source

/-- The tokens of a source, in the one reading or the other. -/
def lex (isStrict : Bool) (source : List UInt8) : Except Error (List Token) :=
  if isStrict then strict source else .ok (permissive source)

/-- The bytes of a source given as integers, each of which has to be one. -/
def bytesOf (values : List Int) : Except Error (List UInt8) :=
  match values.mapM byteOf? with
  | some bytes => .ok bytes
  | none => .error .notInBytes

/-- The token whose byte an integer is. -/
def ofValue (v : Int) : Except Error Token :=
  match (byteOf? v).bind ofByte? with
  | some t => .ok t
  | none => .error (.notAToken v)

/-- The first of several labels under which no token is listed. -/
def unknownLabel? (labels : List String) : Option String :=
  labels.find? fun label => (ofLabel? label).isNone

/-- The tokens listed under labels, up to the first label under which there is none. -/
def ofLabels (labels : List String) : List Token :=
  (labels.takeWhile fun label => (ofLabel? label).isSome).filterMap ofLabel?

/-- Tokens found earlier stay in front of those found later. -/
theorem scan_found (source : List UInt8) (offset : Nat) (c : Bool) (found : List Token) :
    scan offset c found source = (scan offset c [] source).map (found.reverse ++ ·) := by
  induction source generalizing offset c found with
  | nil => simp [scan, Except.map]
  | cons b rest ih =>
    unfold scan
    split
    · exact ih _ _ _
    · split
      · rename_i t _
        rw [ih _ _ (t :: found), ih _ _ [t]]
        cases scan (offset + 1) false [] rest <;> simp [Except.map]
      · split
        · exact ih _ _ _
        · split
          · exact ih _ _ _
          · rfl

end ByteTape.Token
