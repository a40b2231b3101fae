/-
The settings of a run: how strictly the source is read, round what the pointer wraps, and what a
read does when the input is exhausted. `Settings.make` checks the two choices; `Settings.unchecked`
takes them as they come, and a run fails on a choice it does not know when it comes to use it.
-/
import ByteTape.Error

namespace ByteTape

/-- Round what the pointer wraps: 256 cells, or the cells of the tape. -/
inductive PointerWrap where
  | byte
  | tape
  | other (v : Scalar)
  deriving DecidableEq

/-- What a read does at the end of the input: fail, store zero, or leave the cell. -/
inductive EofPolicy where
  | abort
  | zero
  | unchanged
  | other (v : Scalar)
  deriving DecidableEq

namespace PointerWrap

def ofScalar (v : Scalar) : PointerWrap :=
  if v = .text "byte" then .byte else if v = .text "tape" then .tape else .other v

def toScalar : PointerWrap → Scalar
  | .byte => .text "byte"
  | .tape => .text "tape"
  | .other v => v

/-- What moves are taken modulo, on a tape of `n` cells. -/
def modulus (n : Nat) : PointerWrap → Except Error Nat
  | .byte => .ok 256
  | .tape => .ok n
  | .other v => .error (.unhandledWrap v)

end PointerWrap

namespace EofPolicy

def ofScalar (v : Scalar) : EofPolicy :=
  if v = .text "abort" then .abort
  else if v = .text "zero" then .zero
  else if v = .text "unchanged" then .unchanged
  else .other v

def toScalar : EofPolicy → Scalar
  | .abort => .text "abort"
  | .zero => .text "zero"
  | .unchanged => .text "unchanged"
  | .other v => v

end EofPolicy

/-- The settings of a run. -/
structure Settings where
  strict : Bool := false
  wrap : PointerWrap := .byte
  onEof : EofPolicy := .abort
  deriving DecidableEq

namespace Settings

/-- Settings with the two choices as they come. -/
def unchecked (strict : Bool) (wrap onEof : Scalar) : Settings :=
  ⟨strict, .ofScalar wrap, .ofScalar onEof⟩

/-- Settings with known choices only; the wrap is looked at first. -/
def make (strict : Bool) (wrap onEof : Scalar) : Except Error Settings :=
  match PointerWrap.ofScalar wrap, EofPolicy.ofScalar onEof with
  | .other v, _ => .error (.unknownWrap v)
  | _, .other v => .error (.unknownEofPolicy v)
  | w, p => .ok ⟨strict, w, p⟩

/-- Settings as they are asked for: any values for the two choices, to be checked or not. -/
structure Request where
  strict : Bool := false
  wrap : Scalar := .text "byte"
  onEof : Scalar := .text "abort"
  checked : Bool := true
  deriving DecidableEq

/-- The settings asked for. -/
def Request.resolve (q : Request) : Except Error Settings :=
  if q.checked then make q.strict q.wrap q.onEof else .ok (.unchecked q.strict q.wrap q.onEof)

/-- The settings as text. -/
def text (s : Settings) : String :=
  let strict := Scalar.bool s.strict
  s!"Settings(strict={strict.quoted}, pointer_wrap={s.wrap.toScalar.quoted}, " ++
    s!"on_eof={s.onEof.toScalar.quoted})"

end Settings

end ByteTape
