/-
One call of the program from its command line: the arguments are read, the source is fetched, and
the program is run. What the call amounts to is a report: how it ended, what its streams saw, and
what it printed. The stream the program writes to may be handed over, or be the standard output;
the standard output is released at the end of a run, and turned away for good if that fails in a
way that is tolerated, and turning it away may fail in its turn. An argument is a text: all its
characters have an encoding.
-/
import ByteTape.CommandLine.Usage
import ByteTape.Directory
import ByteTape.Interpret

namespace ByteTape.CommandLine

/-- Whose streams a call uses: those handed over by its caller, or the standard ones. A call as a
script uses the standard ones too, and passes its code on to the system. -/
inductive Mode where
  | handedOver
  | standard
  | script
  deriving DecidableEq

/-- How a call ends: with a code for its caller, with a code for the system, or with an error that
nothing catches. -/
inductive Ending where
  | returned (code : Nat)
  | exited (code : Nat)
  | raised (e : Error)
  deriving DecidableEq

/-- What is printed for the user beside the output: a record of the log, or a text. -/
inductive Diagnostic where
  | record (r : LogRecord)
  | text (s : String)
  deriving DecidableEq

/-- A diagnostic as it is printed. -/
def Diagnostic.print : Diagnostic → String
  | .record r => r.line ++ "\n"
  | .text s => s

/-- What a call amounts to. -/
structure CallReport where
  ending : Ending
  streams : Streams
  stdout : String := ""
  stderr : List Diagnostic := []
  redirected : Bool := false

/-- The records that are shown: all of them, or the warnings. -/
def shown (verbose : Bool) (r : LogRecord) : Bool := verbose || r.level == .warning

/-- What is said when a file is not read. -/
def cannotRead (path : String) (r : Refusal) : String :=
  s!"Cannot read file with path: '{path}', error: '{r.message path}'\n"

/-- How a run's outcome ends the call, and what is said about it. -/
def Ending.ofOutcome : Outcome → Ending × List Diagnostic
  | .normal => (.returned 0, [])
  | .failed e =>
    if e.isSyntax then (.returned 2, [.text s!"Syntax error: {e.message}\n"])
    else match e with
      | .inputExhausted _ => (.returned 1, [.text s!"Runtime error: {e.message}\n"])
      | e => (.raised e, [])

/-- What a call amounts to that ran a program, or failed to read one: the records that are shown
come first, then what is said about the outcome. -/
def CallReport.ofOutcome (verbose : Bool) (o : Outcome) (st : Streams) : CallReport :=
  let records := (st.log.toList.filter (shown verbose)).map Diagnostic.record
  { ending := (Ending.ofOutcome o).1, streams := st, stderr := records ++ (Ending.ofOutcome o).2 }

/-- What a call amounts to that runs no program. -/
def CallReport.ofStop (st : Streams) : Stop → CallReport
  | .help => { ending := .exited 0, streams := st, stdout := help }
  | .version => { ending := .exited 0, streams := st, stdout := version }
  | .usage e => { ending := .exited 2, streams := st, stderr := [.text e.report] }

/-- What a call amounts to that an error leaves before the run. -/
def CallReport.ofError (st : Streams) (e : Error) : CallReport := { ending := .raised e, streams := st }

/-- The bytes of the program to run, or what the call amounts to without them. -/
def CodeOrigin.fetch (files : Files) (st : Streams) : CodeOrigin → Except CallReport (List UInt8)
  | .code (some text) => .ok (Text.encode text)
  | .code none => .error (.ofError st .codeNotText)
  | .file path => match files path with
    | .ok source => .ok source
    | .error (.refused r) =>
      .error { ending := .returned 1, streams := st, stderr := [.text (cannotRead path r)] }
    | .error .embeddedNul => .error (.ofError st .embeddedNul)

/-- How turning the standard output away ends, which makes its descriptor one of the null device: it
is done, or a fault is raised before that, as where the standard output is closed and has no
descriptor; or one is raised behind it, where the null device is closed again. -/
inductive TurningAway where
  | done
  | failed (f : Fault)
  | failedBehind (f : Fault)
  deriving DecidableEq

/-- Flushes the standard output at the end of a run. A tolerated fault turns it away. Any other, and
a fault of turning it away, takes the place of how the call ended. -/
def CallReport.release (releaseFault : Option Fault) (turning : TurningAway) (r : CallReport) :
    CallReport :=
  let r := { r with streams := r.streams.happen (.release releaseFault.isSome) }
  match releaseFault with
  | none => r
  | some f =>
    if f.tolerated then match turning with
      | .done => { r with redirected := true }
      | .failed g => { r with ending := .raised (.fault g) }
      | .failedBehind g => { r with ending := .raised (.fault g), redirected := true }
    else { r with ending := .raised (.fault f) }

/-- As a script, the code is passed on to the system. -/
def CallReport.asScript (r : CallReport) : CallReport :=
  match r.ending with
  | .returned code => { r with ending := .exited code }
  | _ => r

/-- What the options ask to be run, or what the call amounts to without a run: the source is fetched
first, then the settings are checked. -/
def Options.prepare (files : Files) (st : Streams) (o : Options) :
    Except CallReport (Settings × List UInt8) :=
  match o.origin.fetch files st, o.settings.resolve with
  | .error r, _ => .error r
  | .ok _, .error e => .error (.ofError st e)
  | .ok source, .ok settings => .ok (settings, source)

/-- What a call amounts to when its run is over; the standard output is released then, if it is what
the program writes to. -/
def Options.conclude (mode : Mode) (releaseFault : Option Fault) (turning : TurningAway)
    (o : Options) (outcome : Outcome) (st : Streams) : CallReport :=
  let r := CallReport.ofOutcome o.verbose outcome st
  match mode with
  | .handedOver => r
  | .standard | .script => r.release releaseFault turning

/-- A call whose arguments ask for a program. -/
def runOptions (fuel : Nat) (mode : Mode) (releaseFault : Option Fault) (turning : TurningAway)
    (files : Files) (st : Streams) (o : Options) : Option CallReport :=
  match o.prepare files st with
  | .error r => some r
  | .ok (settings, source) =>
    (interpret fuel settings source st).map fun (outcome, st') =>
      o.conclude mode releaseFault turning outcome st'

/-- A call of the program. If nothing is said of them, the arguments are read in the way of the early
edition, and turning the standard output away goes well. -/
def call (fuel : Nat) (mode : Mode) (releaseFault : Option Fault) (files : Files) (st : Streams)
    (arguments : List String) (d : Edition := .early) (turning : TurningAway := .done) :
    Option CallReport :=
  let report := match parse d arguments with
    | .error stop => some (CallReport.ofStop st stop)
    | .ok o => runOptions fuel mode releaseFault turning files st o
  match mode with
  | .script => report.map CallReport.asScript
  | .handedOver | .standard => report

end ByteTape.CommandLine
