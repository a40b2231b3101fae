/-
The program itself: the command line on the real streams. Before each step of interpreting a source
the real sink and source are asked for what that step is going to want of them, and the step's own
streams are set up to give the same answer; everything else is the library's.
-/
import ByteTape.CommandLine.Invocation

namespace ByteTape.CommandLine

/-! ## What the system answers -/

/-- The number of a failure, which the system may hand over with its sign turned. -/
def failureNumber (code : UInt32) : Nat := min code.toNat (0 - code).toNat

/-- A failure of the system as a fault of a stream. -/
def faultOf : IO.Error → Fault
  | .resourceVanished code details => ⟨.brokenPipe, s!"[Errno {failureNumber code}] {details}"⟩
  | .resourceExhausted _ code details => ⟨.system, s!"[Errno {failureNumber code}] {details}"⟩
  | e => ⟨.system, toString e⟩

/-- A failure to open a file as a refusal. -/
def refusalOf : IO.Error → Refusal
  | .noFileOrDirectory _ code details | .inappropriateType _ code details
  | .invalidArgument _ code details | .permissionDenied _ code details =>
    .ofNumber (failureNumber code) details
  | e => .ofNumber 5 (toString e)

/-- The contents of a file. -/
def contentsOf (path : String) : IO (Except OpenError (List UInt8)) := do
  if path.toList.contains '\x00' then return .error .embeddedNul
  try return .ok (← IO.FS.readBinFile path).toList
  catch e => return .error (.refused (refusalOf e))

/-- Does something to a stream, and tells whether it failed. -/
def attempt (action : IO Unit) : IO (Option Fault) := do
  try action; return none
  catch e => return some (faultOf e)

/-- Reads one byte. -/
def fetchByte (input : IO.FS.Stream) : IO ReadResult := do
  try return .data (← input.read 1).toList
  catch e => return .fault (faultOf e)

/-! ## Running on the real streams -/

/-- Shows the records made so far and forgets what the streams have seen. -/
def settle (verbose : Bool) (st : Streams) : IO Streams := do
  for r in st.log do
    if shown verbose r then (← IO.getStderr).putStrLn r.line
  return { st with sink := { st.sink with stored := #[] }, events := #[], log := #[] }

/-- Flushes the real sink, and has the result wait for the step that flushes. -/
def attendFlush (output : IO.FS.Stream) (st : Streams) : IO Streams := do
  let f ← attempt output.flush
  return { st with sink := { st.sink with flushFault := fun _ => f } }

/-- Does on the real streams what the next step will do, and has its result wait there. -/
def attend (input output : IO.FS.Stream) (verbose : Bool) :
    Interpretation → IO Interpretation
  | .running r c => do
    let st := c.state.streams
    let prepared ← match c.next?, c.state.machine.current with
      | some (.op .write), .ok b => do
        let st ← settle verbose st
        let f ← attempt (output.write (ByteArray.mk #[b]))
        pure { st with sink := { st.sink with writeFault := fun _ => f } }
      | some (.op .read), _ => do
        let st ← attendFlush output (← settle verbose st)
        let reads := (st.sink.flushFault st.sink.flushes).all Fault.tolerated
        pure { st with source := ← if reads then pure [← fetchByte input] else pure [] }
      | _, _ => pure st
    return .running r { c with state := { c.state with streams := prepared } }
  | .flushing o st => return .flushing o (← attendFlush output st)
  | .finished o st => return .finished o st

/-- Steps until it is finished. -/
partial def drive (input output : IO.FS.Stream) (verbose : Bool) (i : Interpretation) :
    IO (Outcome × Streams) := do
  match (← attend input output verbose i).next with
  | .finished o st => return (o, st)
  | i => drive input output verbose i

/-- Prints what a call amounts to, and gives its code to the system. -/
def deliver (r : CallReport) : IO UInt32 := do
  (← IO.getStdout).putStr r.stdout
  for d in r.stderr do
    (← IO.getStderr).putStr d.print
  match r.asScript.ending with
  | .returned code | .exited code => return UInt32.ofNat code
  | .raised e =>
    (← IO.getStderr).putStrLn e.message
    return 1

/-- Calls the program. -/
def perform (arguments : List String) : IO UInt32 := do
  match parse .late arguments with
  | .error stop => deliver (.ofStop {} stop)
  | .ok o =>
    let contents ← match o.origin with
      | .code _ => pure (Except.ok [])
      | .file path => contentsOf path
    match o.prepare (fun _ => contents) {} with
    | .error r => deliver r
    | .ok (settings, source) =>
      let (outcome, st) ←
        drive (← IO.getStdin) (← IO.getStdout) o.verbose (.start settings source {})
      deliver (o.conclude .handedOver none .done outcome st)

end ByteTape.CommandLine

def main (arguments : List String) : IO UInt32 := ByteTape.CommandLine.perform arguments
