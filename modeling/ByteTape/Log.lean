/-
The records a call leaves in the log: one when a text has been cut into tokens, one when the
tokens have been arranged into a program, and a warning for each fault of the sink that the run
goes on after.
-/
namespace ByteTape

/-- How much a record matters. -/
inductive Level where
  | debug
  | warning
  deriving DecidableEq

/-- One record of the log. -/
inductive LogRecord where
  | lexed (tokens bytes : Nat) (strict : Bool)
  | parsed (instructions : Nat)
  | writeFailed (byte : UInt8) (reason : String)
  | flushFailed (reason : String)
  deriving DecidableEq

namespace LogRecord

def level : LogRecord → Level
  | .lexed _ _ _ | .parsed _ => .debug
  | .writeFailed _ _ | .flushFailed _ => .warning

/-- The part of the interpreter that a record names as its origin. -/
def origin : LogRecord → String
  | .lexed _ _ _ | .parsed _ => "brainfuck"
  | .writeFailed _ _ | .flushFailed _ => "executor"

def message : LogRecord → String
  | .lexed tokens bytes strict =>
    s!"Lexed {tokens} tokens from {bytes} bytes" ++ if strict then " (strict)" else ""
  | .parsed n => s!"Parsed {n} top-level instructions"
  | .writeFailed b reason => s!"Failed to write byte {b.toNat}: {reason}"
  | .flushFailed reason => s!"Failed to flush output: {reason}"

/-- A record as one line of the log. -/
def line (r : LogRecord) : String :=
  let level := match r.level with
    | .debug => "DEBUG"
    | .warning => "WARNING"
  s!"{level} {r.origin}: {r.message}"

end LogRecord

end ByteTape
