/-
Sessions: one machine, one sink and one source that live through a series of commands. A command
runs a program, keeps one under a name for later, or changes the machine or the source by hand;
each is answered by a report of how it ended, what it added to the streams, and the machine it
left. A run that fails leaves everything as it was at the failure.
-/
import ByteTape.Interpret

namespace ByteTape

/-- Where the program of a run comes from. -/
inductive Origin where
  /-- a source, read strictly or not -/
  | source (bytes : List UInt8) (strict : Bool)
  /-- a program kept under a name -/
  | slot (name : String)
  /-- a program built by hand -/
  | tree (p : Program)

/-- What can be asked of a session. -/
inductive Command where
  | run (origin : Origin) (settings : Settings.Request)
  | load (slot : String) (bytes : List UInt8) (strict : Bool)
  | machine (size : Int) (cells : List (Int × Int)) (pointer : Int)
  | pointer (p : Int)
  | poke (p value : Int)
  | grow (n : Int)
  | shrink (n : Int)
  | feed (more : Source)

/-- A machine with its streams, and the programs kept. -/
structure Session where
  state : State
  slots : List (String × Program) := []

/-- The answer to a command. -/
structure Report where
  outcome : Outcome
  /-- records added to the log -/
  log : List LogRecord
  /-- bytes stored -/
  stored : List UInt8
  /-- what happened on the streams -/
  events : List Event
  /-- the machine afterwards -/
  pointer : Int
  size : Nat
  nonzero : List (Nat × UInt8)

namespace Session

/-- The program of a run, with the records of reading it. -/
def programOf (slots : List (String × Program)) : Origin → Logged Program
  | .source bytes strict => Program.load strict bytes
  | .slot name => match slots.find? (·.1 == name) with
    | some (_, p) => ⟨.ok p, []⟩
    | none => ⟨.error (.unknownSlot name), []⟩
  | .tree p => ⟨.ok p, []⟩

/-- Changes the machine by a function that may refuse. -/
def changeMachine (s : Session) (change : Machine → Except Error Machine) : Outcome × Session :=
  match change s.state.machine with
  | .error e => (.failed e, s)
  | .ok m => (.normal, { s with state := { s.state with machine := m } })

/-- Adds records to the log. -/
def recordAll (s : Session) (log : List LogRecord) : Session :=
  let st := s.state.streams
  { s with state := { s.state with streams := { st with log := st.log ++ log } } }

/-- Obeys a command. For a run the program is made first, then the settings. -/
def obey (fuel : Nat) (s : Session) : Command → Option (Outcome × Session)
  | .run origin request =>
    let loaded := programOf s.slots origin
    let s := s.recordAll loaded.log
    match loaded.result, request.resolve with
    | .error e, _ => some (.failed e, s)
    | _, .error e => some (.failed e, s)
    | .ok p, .ok settings => match s with
      | ⟨state, slots⟩ => (execute fuel settings p state).map fun (o, state') => (o, ⟨state', slots⟩)
  | .load slot bytes strict =>
    let loaded := Program.load strict bytes
    let s := s.recordAll loaded.log
    match loaded.result with
    | .error e => some (.failed e, s)
    | .ok p => some (.normal, { s with slots := (slot, p) :: s.slots })
  | .machine size cells pointer =>
    some (s.changeMachine fun _ => Machine.build size cells pointer)
  | .pointer p => some (s.changeMachine fun m => .ok { m with pointer := p })
  | .poke p value => some (s.changeMachine fun m => m.poke p value)
  | .grow n => some (s.changeMachine fun m => m.grow n)
  | .shrink n => some (s.changeMachine fun m => .ok (m.shrink n))
  | .feed more =>
    some (.normal, { s with state := { s.state with streams := s.state.streams.feed more } })

/-- Obeys a command and reports on it. -/
def answer (fuel : Nat) (s : Session) (c : Command) : Option (Report × Session) :=
  let st := s.state.streams
  let records := st.log.size
  let bytes := st.sink.stored.size
  let events := st.events.size
  match s.obey fuel c with
  | none => none
  | some (o, s') =>
    let m := s'.state.machine
    let st := s'.state.streams
    some (
      { outcome := o
        log := (st.log.extract records st.log.size).toList
        stored := (st.sink.stored.extract bytes st.sink.stored.size).toList
        events := (st.events.extract events st.events.size).toList
        pointer := m.pointer
        size := m.cells.size
        nonzero := m.nonzero },
      s')

end Session

end ByteTape
