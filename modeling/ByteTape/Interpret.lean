/-
Interpreting a source: read it, run the program on a fresh machine, and flush the sink at the end
however the run ended. A fault of that last flush that is not tolerated takes the place of the
run's own outcome. A source that is no program touches no stream. An `Interpretation` is the same
one step at a time, so that what is around it can see to the streams between the steps.
-/
import ByteTape.Execution.Stack
import ByteTape.Program.Loading

namespace ByteTape

/-- Flushes the sink at the end of a run. -/
def conclude (o : Outcome) (st : Streams) : Outcome × Streams :=
  match st.flush with
  | (.normal, st') => (o, st')
  | (.failed e, st') => (.failed e, st')

/-- Interprets a source under checked or unchecked settings. -/
def interpret (fuel : Nat) (settings : Settings) (source : List UInt8) (st : Streams) :
    Option (Outcome × Streams) :=
  let loaded := Program.load settings.strict source
  let st := { st with log := st.log ++ loaded.log }
  match loaded.result with
  | .error e => some (.failed e, st)
  | .ok p =>
    match execute fuel settings p ⟨Machine.fresh Machine.defaultSize, st⟩ with
    | none => none
    | some (o, s) => some (conclude o s.streams)

/-- Interpreting a source, under way: the run goes on, or it has ended and the last flush is to come,
or it is finished. -/
inductive Interpretation where
  | running (r : Rules) (c : Config)
  | flushing (o : Outcome) (st : Streams)
  | finished (o : Outcome) (st : Streams)

namespace Interpretation

/-- Interpreting a source, before the first step of its run. -/
def start (settings : Settings) (source : List UInt8) (st : Streams) : Interpretation :=
  let loaded := Program.load settings.strict source
  let st := { st with log := st.log ++ loaded.log }
  match loaded.result with
  | .error e => .finished (.failed e) st
  | .ok p =>
    let m := Machine.fresh Machine.defaultSize
    match settings.wrap.modulus m.cells.size with
    | .error e => .flushing (.failed e) st
    | .ok modulus => .running ⟨modulus, settings.onEof⟩ (.start p ⟨m, st⟩)

/-- One step. -/
def next : Interpretation → Interpretation
  | .running r c => match c.step r with
    | .running c' => .running r c'
    | .ended o s => .flushing o s.streams
  | .flushing o st =>
    let (o', st') := conclude o st
    .finished o' st'
  | .finished o st => .finished o st

end Interpretation

end ByteTape
