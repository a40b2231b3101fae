/-
Plain values: what a setting may be given before anyone has checked it, and what an error may be
built from. A scalar has two written forms: `plain`, in which a text stands as it is, and `quoted`,
in which it stands in quotes.
-/
import ByteTape.Text.Quoted

namespace ByteTape

/-- A value of one of the basic kinds, or an empty list of values. -/
inductive Scalar where
  | none
  | empty
  | bool (b : Bool)
  | int (n : Int)
  | text (s : String)
  deriving DecidableEq

namespace Scalar

/-- The form in which a text is told from the other kinds by its quotes. -/
def quoted : Scalar → String
  | .none => "None"
  | .empty => "[]"
  | .bool true => "True"
  | .bool false => "False"
  | .int n => toString n
  | .text s => Text.quote s

/-- The form in which a text stands as it is. -/
def plain : Scalar → String
  | .text s => s
  | v => v.quoted

/-- The name of the kind that a value is of. -/
def kindName : Scalar → String
  | .none => "NoneType"
  | .empty => "list"
  | .bool _ => "bool"
  | .int _ => "int"
  | .text _ => "str"

/-- The integer that a value is; a truth value counts as 0 or 1. -/
def toInt? : Scalar → Option Int
  | .int n => some n
  | .bool b => some (if b then 1 else 0)
  | .none | .empty | .text _ => Option.none

/-- Several values, quoted, between parentheses. -/
def tuple (vs : List Scalar) : String :=
  String.ofList (Text.tuple (vs.map fun v => v.quoted.toList))

end Scalar

end ByteTape
