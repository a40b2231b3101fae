/-
Failures that come from outside a program: what a sink or a source raises when it cannot do its
work. A fault has a kind and a message. Kinds belong to families, and the families decide what a
run does with a fault of the sink: one of the system or of the value family is tolerated.
-/
import ByteTape.Scalar

namespace ByteTape

/-- The families into which errors of every origin fall. -/
inductive Family where
  /-- errors that the interpreter itself defines -/
  | interpreter
  /-- loop brackets that do not match -/
  | brackets
  /-- a value outside its range -/
  | value
  /-- nothing left to read -/
  | endOfInput
  /-- the operating system refused -/
  | system
  deriving DecidableEq

/-- What kind of failure a stream reports. -/
inductive FaultKind where
  | system
  | brokenPipe
  | value
  | encoding
  | runtime
  | endOfInput
  | interpreter
  | outputFailure
  deriving DecidableEq

/-- The families of a kind of fault. A broken pipe is a system failure, a failed encoding a value
failure, and an output failure is the interpreter's own system failure. -/
def FaultKind.families : FaultKind → List Family
  | .system => [.system]
  | .brokenPipe => [.system]
  | .value => [.value]
  | .encoding => [.value]
  | .runtime => []
  | .endOfInput => [.endOfInput]
  | .interpreter => [.interpreter]
  | .outputFailure => [.interpreter, .system]

/-- A run goes on after a fault of the sink that is a system or a value failure: a closed stream
reports the one or the other. -/
def FaultKind.tolerated (k : FaultKind) : Bool :=
  k.families.any fun f => f == .system || f == .value

/-- A failure of a stream: its kind and what it says. -/
structure Fault where
  kind : FaultKind
  message : String
  deriving DecidableEq

/-- What a fault says that was built from values: nothing from none, the one value as it is, and
several as a tuple. -/
def Fault.describe : List Scalar → String
  | [] => ""
  | [v] => v.plain
  | vs => Scalar.tuple vs

/-- What a system fault says that was built from values: from two to five of them are an error
number, a reason, and the files concerned. -/
def Fault.describeSystem : List Scalar → String
  | [number, reason] => s!"[Errno {number.plain}] {reason.plain}"
  | number :: reason :: file :: more =>
    match file, more with
    | .none, [] | .none, [_] | .none, [_, _] => s!"[Errno {number.plain}] {reason.plain}"
    | file, [] | file, [_] | file, [_, .none] =>
      s!"[Errno {number.plain}] {reason.plain}: {file.quoted}"
    | file, [_, target] =>
      s!"[Errno {number.plain}] {reason.plain}: {file.quoted} -> {target.quoted}"
    | _, _ => Scalar.tuple (number :: reason :: file :: more)
  | vs => describe vs

/-- A fault of a kind, built from values. -/
def Fault.ofValues (kind : FaultKind) (vs : List Scalar) : Fault :=
  ⟨kind, if kind.families.contains .system then describeSystem vs else describe vs⟩

/-- A fault that a run logs and goes on after. -/
def Fault.tolerated (f : Fault) : Bool := f.kind.tolerated

end ByteTape
