/-
Running a program on an explicit stack. A frame is a sequence being run: what is left of it, and,
for the body of a loop, the whole body, so that the frame can start over while the current cell is
not zero. One step runs an instruction, enters or skips a loop, or deals with a frame that has
nothing left. Runs are bounded by fuel, one unit a step; a run without a result has not ended
within its fuel.
-/
import ByteTape.Execution.Operation

namespace ByteTape

/-- A sequence being run. The root of the stack has no body to start over. -/
structure Frame where
  body : Option Program
  rest : Program
  deriving DecidableEq

/-- A run under way: the frames, innermost first, and the state. -/
structure Config where
  stack : List Frame
  state : State

/-- Where a step leads: on, or to an end. -/
inductive Progress where
  | running (c : Config)
  | ended (o : Outcome) (s : State)

namespace Config

/-- The root frame of a program. -/
def start (p : Program) (s : State) : Config := ⟨[⟨none, p⟩], s⟩

/-- One step. -/
def step (r : Rules) (c : Config) : Progress :=
  match c with
  | ⟨[], s⟩ => .ended .normal s
  | ⟨⟨body, .instr i rest⟩ :: outer, s⟩ =>
    match i.perform r s with
    | (.normal, s') => .running ⟨⟨body, rest⟩ :: outer, s'⟩
    | (.failed e, s') => .ended (.failed e) s'
  | ⟨⟨body, .loop inner rest⟩ :: outer, s⟩ =>
    match s.machine.current with
    | .error e => .ended (.failed e) s
    | .ok b =>
      if b = 0 then .running ⟨⟨body, rest⟩ :: outer, s⟩
      else .running ⟨⟨some inner, inner⟩ :: ⟨body, rest⟩ :: outer, s⟩
  | ⟨⟨none, .nil⟩ :: outer, s⟩ => .running ⟨outer, s⟩
  | ⟨⟨some body, .nil⟩ :: outer, s⟩ =>
    match s.machine.current with
    | .error e => .ended (.failed e) s
    | .ok b =>
      if b = 0 then .running ⟨outer, s⟩
      else .running ⟨⟨some body, body⟩ :: outer, s⟩

/-- The instruction that the next step performs, if it performs one. -/
def next? (c : Config) : Option Instruction :=
  match c.stack with
  | ⟨_, .instr i _⟩ :: _ => some i
  | _ => none

/-- Steps until the run ends, or the fuel does. -/
def run (r : Rules) : Nat → Config → Option (Outcome × State)
  | 0, _ => none
  | fuel + 1, c => match c.step r with
    | .ended o s => some (o, s)
    | .running c' => c'.run r fuel

end Config

/-- Runs a program on a state. A wrap that is not known is an error before any instruction. -/
def execute (fuel : Nat) (settings : Settings) (p : Program) (s : State) :
    Option (Outcome × State) :=
  match settings.wrap.modulus s.machine.cells.size with
  | .error e => some (.failed e, s)
  | .ok modulus => (Config.start p s).run ⟨modulus, settings.onEof⟩ fuel

end ByteTape
