/-
The texts of the command line: its usage, its help, its version, and the report of a usage error.
-/
import ByteTape.CommandLine.Arguments

namespace ByteTape.CommandLine

/-- The name the program goes by. -/
def programName : String := "bfint"

/-- How the program is called. -/
def usage : String :=
  "usage: bfint [-h] [-c CODE] [--strict] [--pointer-wrap \x7bbyte,tape\x7d]\n" ++
  "             [--eof \x7babort,zero,unchanged\x7d] [-v] [--version]\n" ++
  "             [file]\n"

/-- What the program is for, and what each argument means. -/
def help : String :=
  usage ++
  "\n" ++
  "Run a brainfuck program.\n" ++
  "\n" ++
  "positional arguments:\n" ++
  "  file                  Path to file with brainfuck code\n" ++
  "\n" ++
  "options:\n" ++
  "  -h, --help            show this help message and exit\n" ++
  "  -c CODE, --code CODE  Brainfuck source code\n" ++
  "  --strict              Reject bytes other than instructions, whitespace and\n" ++
  "                        // comments\n" ++
  "  --pointer-wrap \x7bbyte,tape\x7d\n" ++
  "                        Wrap the data pointer modulo 256 (default) or modulo\n" ++
  "                        the tape length\n" ++
  "  --eof \x7babort,zero,unchanged\x7d\n" ++
  "                        What ',' does when input is exhausted (default: abort)\n" ++
  "  -v, --verbose         Log debug information to stderr\n" ++
  "  --version             show program's version number and exit\n"

/-- The program and its version. -/
def version : String := s!"{programName} 0.1.0\n"

/-- What is printed about wrong arguments. -/
def UsageError.report (e : UsageError) : String :=
  usage ++ s!"{programName}: error: {e.message}\n"

end ByteTape.CommandLine
