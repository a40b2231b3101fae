/-
The options of the command line: the flags each is written as, whether it takes a value, and what
a line of arguments amounts to once they have been taken in.
-/
import ByteTape.Settings

namespace ByteTape.CommandLine

/-- An argument, as the characters it is made of. -/
abbrev Word := List Char

/-- The options. -/
inductive Opt where
  | help | code | strict | wrap | eof | verbose | version
  deriving DecidableEq

namespace Opt

/-- Every option, in the order in which the usage lists them. -/
def all : List Opt := [.help, .code, .strict, .wrap, .eof, .verbose, .version]

/-- The flags an option is written as. -/
def flags : Opt → List Word
  | .help => [['-', 'h'], ['-', '-', 'h', 'e', 'l', 'p']]
  | .code => [['-', 'c'], ['-', '-', 'c', 'o', 'd', 'e']]
  | .strict => [['-', '-', 's', 't', 'r', 'i', 'c', 't']]
  | .wrap => [['-', '-', 'p', 'o', 'i', 'n', 't', 'e', 'r', '-', 'w', 'r', 'a', 'p']]
  | .eof => [['-', '-', 'e', 'o', 'f']]
  | .verbose => [['-', 'v'], ['-', '-', 'v', 'e', 'r', 'b', 'o', 's', 'e']]
  | .version => [['-', '-', 'v', 'e', 'r', 's', 'i', 'o', 'n']]

/-- An option that needs a value. -/
def takesValue : Opt → Bool
  | .code | .wrap | .eof => true
  | .help | .strict | .verbose | .version => false

/-- The values an option offers to choose from. -/
def choices : Opt → List Word
  | .wrap => [['b', 'y', 't', 'e'], ['t', 'a', 'p', 'e']]
  | .eof =>
    [['a', 'b', 'o', 'r', 't'], ['z', 'e', 'r', 'o'], ['u', 'n', 'c', 'h', 'a', 'n', 'g', 'e', 'd']]
  | .help | .code | .strict | .verbose | .version => []

/-- What an option is called in an error. -/
def name (o : Opt) : String := "/".intercalate (o.flags.map String.ofList)

/-- Every flag with its option, in the order of the options. -/
def table : List (Word × Opt) := all.flatMap fun o => o.flags.map fun f => (f, o)

/-- The option written as a flag. -/
def ofFlag? (w : Word) : Option Opt := (table.find? (·.1 == w)).map (·.2)

end Opt

/-- Where the program to run stands: on the command line, where it may have been given as no value
at all, or in a file. -/
inductive CodeOrigin where
  | code (text : Option String)
  | file (path : String)
  deriving DecidableEq

/-- What the arguments ask for. -/
structure Options where
  origin : CodeOrigin
  settings : Settings.Request := {}
  verbose : Bool := false
  deriving DecidableEq

end ByteTape.CommandLine
