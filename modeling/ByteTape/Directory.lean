/-
Directories and the files below them, and what comes of opening a path: the contents of a file, or
the reason why there are none. A path is looked up name by name from the directory on; nothing is
known of what lies outside it, save that directories do.
-/
import ByteTape.Text.Pieces
import ByteTape.Text.Quoted

namespace ByteTape

/-- Why the system does not open a file. -/
inductive Refusal where
  | notFound
  | notADirectory
  | isADirectory
  | nameTooLong
  | permissionDenied
  | other (number : Nat) (reason : String)
  deriving DecidableEq

namespace Refusal

/-- The number the system gives the reason. -/
def number : Refusal → Nat
  | .notFound => 2
  | .notADirectory => 20
  | .isADirectory => 21
  | .nameTooLong => 36
  | .permissionDenied => 13
  | .other n _ => n

/-- The reason in words. -/
def reason : Refusal → String
  | .notFound => "No such file or directory"
  | .notADirectory => "Not a directory"
  | .isADirectory => "Is a directory"
  | .nameTooLong => "File name too long"
  | .permissionDenied => "Permission denied"
  | .other _ reason => reason

/-- The refusal for a number, with a reason in case the number is none of those known. -/
def ofNumber (n : Nat) (reason : String) : Refusal :=
  let known : List Refusal :=
    [.notFound, .notADirectory, .isADirectory, .nameTooLong, .permissionDenied]
  (known.find? (·.number == n)).getD (.other n reason)

/-- What is said of a file that was refused. -/
def message (r : Refusal) (path : String) : String :=
  s!"[Errno {r.number}] {r.reason}: {Text.quote path}"

end Refusal

/-- Why a file cannot be read: its name is no name at all, or the system refuses. -/
inductive OpenError where
  | embeddedNul
  | refused (r : Refusal)
  deriving DecidableEq

/-- What there is to read under a path. -/
abbrev Files := String → Except OpenError (List UInt8)

/-- A name on a path. -/
abbrev Name := List Char

/-- A place, by the names that lead to it, innermost first. A place above the directory is led to
by names `..`, and the root of the system by the name `/`. -/
abbrev Place := List Name

/-- Files, and directories, which have no contents of their own, by their places. Of two entries
with one place the first one counts. -/
structure Directory where
  entries : List (Place × Option (List UInt8))

namespace Directory

/-- The longest name and the longest path, in bytes. -/
def longestName : Nat := 255

def longestPath : Nat := 4095

/-- The root of the system. -/
def root : Name := ['/']

/-- The name that stays in a directory. -/
def dot : Name := ['.']

/-- The name that leads to the directory above. -/
def up : Name := ['.', '.']

/-- The directory above a place. -/
def above : Place → Place
  | [] => [up]
  | n :: rest => if n = up then up :: n :: rest else if n = root then n :: rest else rest

/-- Where a name leads from a place, if it leads anywhere without a look at what is there. -/
def walk? (p : Place) (n : Name) : Option Place :=
  if n = [] || n = dot then some p else if n = up then some (above p) else none

/-- The names on a path, and the place at which it begins. -/
def namesOf (path : List Char) : Place × List Name :=
  (if path.head? = some '/' then [root] else [], Text.pieces (· == '/') path)

/-- Where a name leads if it leads somewhere. -/
def walk (p : Place) (n : Name) : Place := (walk? p n).getD (n :: p)

/-- The place that a path leads to if every name on it leads somewhere. -/
def placeOf (path : List Char) : Place :=
  let (start, names) := namesOf path
  names.foldl walk start

/-- The places that names lead through from a place on, that place first. -/
def through (p : Place) : List Name → List Place
  | [] => [p]
  | n :: rest => p :: through (walk p n) rest

/-- A directory of entries given by their paths and made one after another. What is made twice at
one place is there as it was made last, and a path leads through directories only. -/
def ofEntries (entries : List (String × Option (List UInt8))) : Directory :=
  let made := entries.map fun e => (placeOf e.1.toList, e.2)
  let passed := entries.flatMap fun e =>
    let (start, names) := namesOf e.1.toList
    (through start names).map fun p => (p, none)
  ⟨made.reverse ++ passed⟩

/-- What lies at a place: a file with its contents, a directory, or nothing. -/
def find? (d : Directory) (p : Place) : Option (Option (List UInt8)) :=
  (d.entries.find? (·.1 == p)).map (·.2)

/-- Looks names up from a place on. -/
def readFrom (d : Directory) (p : Place) : List Name → Except Refusal (List UInt8)
  | [] => .error .isADirectory
  | n :: rest => match walk? p n with
    | some p' => d.readFrom p' rest
    | none =>
      if longestName < Text.byteLength n then .error .nameTooLong
      else match d.find? (n :: p), rest with
        | none, _ => .error .notFound
        | some none, rest => d.readFrom (n :: p) rest
        | some (some contents), [] => .ok contents
        | some (some _), _ :: _ => .error .notADirectory

/-- Reads a file. -/
def read (d : Directory) : Files := fun path =>
  let cs := path.toList
  if cs.contains '\x00' then .error .embeddedNul
  else if cs = [] then .error (.refused .notFound)
  else if longestPath < Text.byteLength cs then .error (.refused .nameTooLong)
  else
    let (start, names) := namesOf cs
    (d.readFrom start names).mapError .refused

end Directory

end ByteTape
