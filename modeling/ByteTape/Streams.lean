/-
The streams of a run: the sink that takes bytes, the source that gives them, what has happened on
both, and the log. A sink fails by plan: it has a fault, or none, for each of its writes and each
of its flushes, counted over its whole life. A source is the list of what its reads will bring.
-/
import ByteTape.Error
import ByteTape.Log

namespace ByteTape

/-- What one read brings: bytes, of which there may be none, nothing at all, or a fault. -/
inductive ReadResult where
  | data (bytes : List UInt8)
  | nothing
  | fault (f : Fault)
  deriving DecidableEq

/-- The byte a read result stands for: the first one, if there is any. -/
def ReadResult.byte? : ReadResult → Except Fault (Option UInt8)
  | .data bytes => .ok bytes.head?
  | .nothing => .ok none
  | .fault f => .error f

/-- What is left to read. -/
abbrev Source := List ReadResult

/-- Where bytes go: what has been stored, how often it was written to and flushed, and which of
these calls fail. -/
structure Sink where
  stored : Array UInt8 := #[]
  writes : Nat := 0
  flushes : Nat := 0
  writeFault : Nat → Option Fault := fun _ => none
  flushFault : Nat → Option Fault := fun _ => none

/-- What happened on the streams. The mark says that the call failed; `release` is the flush of
the text stream around the sink. -/
inductive Event where
  | write (b : UInt8) (failed : Bool)
  | flush (failed : Bool)
  | read (r : ReadResult)
  | release (failed : Bool)
  deriving DecidableEq

/-- Everything outside the machine. -/
structure Streams where
  sink : Sink := {}
  source : Source := []
  events : Array Event := #[]
  log : Array LogRecord := #[]

/-- How a computation ends. -/
inductive Outcome where
  | normal
  | failed (e : Error)
  deriving DecidableEq

namespace Streams

/-- Adds an event. -/
def happen (st : Streams) (e : Event) : Streams := { st with events := st.events.push e }

/-- Adds a record to the log. -/
def record (st : Streams) (r : LogRecord) : Streams := { st with log := st.log.push r }

/-- Writes a byte. A sink that fails stores nothing; a tolerated fault is logged, any other is the
outcome. -/
def write (st : Streams) (b : UInt8) : Outcome × Streams :=
  match st with
  | ⟨⟨stored, writes, flushes, writeFault, flushFault⟩, source, events, log⟩ =>
    match writeFault writes with
    | none =>
      (.normal, ⟨⟨stored.push b, writes + 1, flushes, writeFault, flushFault⟩, source,
        events.push (.write b false), log⟩)
    | some f =>
      let sink : Sink := ⟨stored, writes + 1, flushes, writeFault, flushFault⟩
      let events := events.push (.write b true)
      if f.tolerated then (.normal, ⟨sink, source, events, log.push (.writeFailed b f.message)⟩)
      else (.failed (.fault f), ⟨sink, source, events, log⟩)

/-- Flushes the sink. A tolerated fault is logged, any other is the outcome. -/
def flush (st : Streams) : Outcome × Streams :=
  match st with
  | ⟨⟨stored, writes, flushes, writeFault, flushFault⟩, source, events, log⟩ =>
    let sink : Sink := ⟨stored, writes, flushes + 1, writeFault, flushFault⟩
    match flushFault flushes with
    | none => (.normal, ⟨sink, source, events.push (.flush false), log⟩)
    | some f =>
      let events := events.push (.flush true)
      if f.tolerated then (.normal, ⟨sink, source, events, log.push (.flushFailed f.message)⟩)
      else (.failed (.fault f), ⟨sink, source, events, log⟩)

/-- Reads once. Past the end of the source every read brings no bytes. -/
def read (st : Streams) : ReadResult × Streams :=
  match st with
  | ⟨sink, source, events, log⟩ =>
    match source with
    | [] => (.data [], ⟨sink, [], events.push (.read (.data [])), log⟩)
    | r :: rest => (r, ⟨sink, rest, events.push (.read r), log⟩)

/-- Adds read results at the end of the source. -/
def feed (st : Streams) (more : Source) : Streams := { st with source := st.source ++ more }

end Streams

end ByteTape
