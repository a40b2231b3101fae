/-
Quoted forms of bytes and texts, as the messages show them. A quoted form stands between single
quotes, or between double quotes when it holds a single quote and no double one; the backslash,
the quote in use and the three named controls are escaped, and whatever cannot be printed is
written by its number in hexadecimal.
-/
import ByteTape.Text.Character

namespace ByteTape.Text

/-- The lower-case hexadecimal digit of a number below sixteen. -/
def hexDigit (n : Nat) : Char := Nat.digitChar n

/-- A number in hexadecimal, in exactly `width` digits. -/
def hexDigits : Nat → Nat → List Char
  | 0, _ => []
  | width + 1, n => hexDigits width (n / 16) ++ [hexDigit (n % 16)]

def singleQuote : Char := '\x27'

def doubleQuote : Char := '\x22'

def backslash : Char := '\x5c'

/-- The quote around a text: the double one only if that spares escaping single ones. -/
def chooseQuote (cs : List Char) : Char :=
  if cs.contains singleQuote && !cs.contains doubleQuote then doubleQuote else singleQuote

/-- A character that cannot be printed: two, four or eight digits, the fewest that hold it. -/
def escapeNumber (n : Nat) : List Char :=
  if n < 0x100 then backslash :: 'x' :: hexDigits 2 n
  else if n < 0x10000 then backslash :: 'u' :: hexDigits 4 n
  else backslash :: 'U' :: hexDigits 8 n

/-- One character inside quotes `q`. -/
def escape (printable : Char → Bool) (q : Char) (c : Char) : List Char :=
  if c = q ∨ c = backslash then [backslash, c]
  else if c = '\n' then [backslash, 'n']
  else if c = '\r' then [backslash, 'r']
  else if c = '\t' then [backslash, 't']
  else if printable c then [c]
  else escapeNumber c.toNat

/-- A text between the quotes that fit it. -/
def enclose (printable : Char → Bool) (cs : List Char) : List Char :=
  let q := chooseQuote cs
  q :: cs.flatMap (escape printable q) ++ [q]

/-- The quoted form of a text. -/
def quote (s : String) : String := String.ofList (enclose isPrintable s.toList)

/-- A byte that a byte literal shows as itself. -/
def isPlainByte (c : Char) : Bool := ' ' ≤ c && c ≤ '~'

/-- The quoted form of a single byte: a byte literal, in which only printable ASCII stands for
itself. -/
def quoteByte (b : UInt8) : String :=
  String.ofList ('b' :: enclose isPlainByte [Char.ofNat b.toNat])

/-- A list of texts between parentheses and separated by commas; a single one keeps its comma. -/
def tuple : List (List Char) → List Char
  | [] => ['(', ')']
  | [x] => '(' :: x ++ [',', ')']
  | x :: y :: r => '(' :: x ++ (y :: r).flatMap (fun z => ',' :: ' ' :: z) ++ [')']

end ByteTape.Text
