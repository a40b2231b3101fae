/-
What a single instruction does to a machine and its streams. It ends normally or fails, and in
both cases leaves a state; an instruction that fails leaves the machine as it was.
-/
import ByteTape.Machine
import ByteTape.Program
import ByteTape.Settings
import ByteTape.Streams

namespace ByteTape

/-- A machine and its streams. -/
structure State where
  machine : Machine
  streams : Streams

/-- What a run needs to know of its settings: round how many cells the pointer wraps, and what to
do at the end of the input. -/
structure Rules where
  modulus : Nat
  onEof : EofPolicy

namespace State

/-- Replaces the value of the current cell by a function of it. -/
def modifyCell (s : State) (f : UInt8 → UInt8) : Outcome × State :=
  match s with
  | ⟨m, st⟩ =>
    match m.index with
    | .error e => (.failed e, ⟨m, st⟩)
    | .ok i =>
      let b := f (m.cells.getD i 0)
      (.normal, ⟨m.set i b, st⟩)

/-- Moves the pointer. -/
def move (modulus : Nat) (d : Int) (s : State) : Outcome × State :=
  match s with
  | ⟨m, st⟩ =>
    match m.move modulus d with
    | .error e => (.failed e, ⟨m, st⟩)
    | .ok m' => (.normal, ⟨m', st⟩)

/-- Writes the current cell. -/
def write (s : State) : Outcome × State :=
  match s with
  | ⟨m, st⟩ =>
    match m.current with
    | .error e => (.failed e, ⟨m, st⟩)
    | .ok b =>
      let (o, st') := st.write b
      (o, ⟨m, st'⟩)

/-- Takes over what a read brought: its byte goes into the current cell, and without one the
policy decides. -/
def receive (policy : EofPolicy) (r : ReadResult) (s : State) : Outcome × State :=
  match r.byte? with
  | .error f => (.failed (.fault f), s)
  | .ok (some b) => s.modifyCell fun _ => b
  | .ok none => match policy with
    | .abort => (.failed (.inputExhausted s.machine.pointer), s)
    | .zero => s.modifyCell fun _ => 0
    | .unchanged => (.normal, s)
    | .other v => (.failed (.unhandledEofPolicy v), s)

/-- Flushes the sink, so that a prompt is seen, and then reads into the current cell. -/
def read (policy : EofPolicy) (s : State) : Outcome × State :=
  match s with
  | ⟨m, st⟩ =>
    match st.flush with
    | (.failed e, st') => (.failed e, ⟨m, st'⟩)
    | (.normal, st') =>
      let (r, st'') := st'.read
      receive policy r ⟨m, st''⟩

end State

/-- What an instruction does. -/
def Instruction.perform (r : Rules) : Instruction → State → Outcome × State
  | .op .right, s => s.move r.modulus 1
  | .op .left, s => s.move r.modulus (-1)
  | .op .increment, s => s.modifyCell (· + 1)
  | .op .decrement, s => s.modifyCell (· - 1)
  | .op .write, s => s.write
  | .op .read, s => s.read r.onEof
  | .foreign name, s => (.failed (.unhandledInstruction name), s)

end ByteTape
