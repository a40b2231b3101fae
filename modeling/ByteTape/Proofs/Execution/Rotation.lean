/-
Rotating the tape. Where the pointer wraps round the tape itself no cell is the first one, so a run
does not notice when all cells, and the pointer with them, are moved round the tape. The pointers of
the two runs are compared modulo the length of the tape only: before the first move either of them
may count from the end.
-/
import ByteTape.Proofs.Execution.EndOfInput
import ByteTape.Proofs.Execution.TapeSafety

namespace ByteTape

namespace Machine

/-! ## Moving cells round the tape -/

/-- The cells of a tape, each moved by `k` round it. -/
def rotateCells (k : Int) (cells : Array UInt8) : Array UInt8 :=
  Array.ofFn fun j : Fin cells.size => cells.getD (cellAt cells.size (j - k)) 0

/-- The machine with its cells and its pointer moved by `k` round the tape. -/
def rotate (k : Int) (m : Machine) : Machine where
  cells := rotateCells k m.cells
  pointer := (m.pointer + k) % m.cells.size

section

variable {k : Int} {cells : Array UInt8} {i j : Nat}

@[simp] theorem size_rotateCells (k : Int) (cells : Array UInt8) :
    (rotateCells k cells).size = cells.size := Array.size_ofFn

theorem getElem_rotateCells (hj : j < (rotateCells k cells).size) :
    (rotateCells k cells)[j] = cells.getD (cellAt cells.size (j - k)) 0 := by
  simp [rotateCells]

/-- The cell that was at a position is at the position that is `k` further on. -/
theorem getElem?_rotateCells {p q : Int} (hn : 0 < cells.size) (hpq : q ≡ p + k [ZMOD cells.size]) :
    (rotateCells k cells)[cellAt cells.size q]? = cells[cellAt cells.size p]? := by
  have hback : (cellAt cells.size q : Int) - k ≡ p [ZMOD cells.size] := by
    rw [natCast_cellAt hn]
    have := ((Int.mod_modEq q cells.size).trans hpq).sub_right k
    rwa [add_sub_cancel_right] at this
  have hp := cellAt_lt hn p
  have hq : cellAt cells.size q < (rotateCells k cells).size := by
    rw [size_rotateCells]
    exact cellAt_lt hn q
  rw [Array.getElem?_eq_getElem hq, getElem_rotateCells, (cellAt_eq_iff hn).2 hback,
    Array.getD_eq_getD_getElem?, Array.getElem?_eq_getElem hp, Option.getD_some]

theorem rotateCells_set {p q : Int} (hn : 0 < cells.size) (hpq : q ≡ p + k [ZMOD cells.size])
    (b : UInt8) :
    (rotateCells k cells).setIfInBounds (cellAt cells.size q) b =
      rotateCells k (cells.setIfInBounds (cellAt cells.size p) b) := by
  apply Array.ext
  · simp
  · intro l hl hl'
    have hlt : l < cells.size := by simpa using hl
    -- the cell that is set is the one that came here, if it is set at all
    have hsame : cellAt cells.size q = l ↔ cellAt cells.size p = cellAt cells.size (l - k) := by
      conv_lhs => rw [← cellAt_natCast hlt]
      rw [cellAt_eq_iff hn, cellAt_eq_iff hn]
      constructor
      · intro h
        have := (hpq.symm.trans h).sub_right k
        rwa [add_sub_cancel_right] at this
      · intro h
        have := h.add_right k
        rw [sub_add_cancel] at this
        exact hpq.trans this
    rw [Array.getElem_setIfInBounds (by simpa using hlt), getElem_rotateCells, getElem_rotateCells,
      Array.getD_eq_getD_getElem?, Array.getD_eq_getD_getElem?, Array.size_setIfInBounds,
      Array.getElem?_setIfInBounds]
    by_cases h : cellAt cells.size q = l
    · have := cellAt_lt hn (p := l - k)
      simp [h, hsame.1 h, this]
    · simp [h, mt hsame.2 h]

/-- Moved by nothing, the cells stay where they are, and the pointer is counted from the beginning. -/
theorem rotate_zero (m : Machine) : m.rotate 0 = { m with pointer := m.pointer % m.cells.size } := by
  unfold rotate
  congr 1
  · apply Array.ext
    · simp
    · intro i hi hi'
      rw [getElem_rotateCells, sub_zero, cellAt_natCast hi', Array.getD_eq_getD_getElem?,
        Array.getElem?_eq_getElem hi', Option.getD_some]
  · rw [add_zero]

end

/-! ## Machines that differ by a rotation -/

/-- On tapes of `n` cells, the second machine has the cells of the first one moved by `k`, and its
pointer is as much further on, counted round the tape. Each pointer means a cell. -/
structure Rotated (n : Nat) (k : Int) (m m' : Machine) : Prop where
  size : m.cells.size = n
  cells : m'.cells = rotateCells k m.cells
  pointer : m'.pointer ≡ m.pointer + k [ZMOD n]
  within : m.Within
  within' : m'.Within

namespace Rotated

variable {n : Nat} {k : Int} {m m' : Machine}

theorem size' (h : Rotated n k m m') : m'.cells.size = n := by
  rw [h.cells, size_rotateCells, h.size]

theorem pos (h : Rotated n k m m') : 0 < m.cells.size := by
  have hlow := h.within.1
  have hhigh := h.within.2
  omega

theorem index (h : Rotated n k m m') :
    m.index = .ok (cellAt m.cells.size m.pointer) ∧ m'.index = .ok (cellAt m.cells.size m'.pointer) := by
  refine ⟨locate_of_within h.within.1 h.within.2, ?_⟩
  have hsize : m'.cells.size = m.cells.size := h.size'.trans h.size.symm
  have hlow := h.within'.1
  have hhigh := h.within'.2
  rw [hsize] at hlow hhigh
  rw [Machine.index, hsize]
  exact locate_of_within hlow hhigh

theorem pointer_size (h : Rotated n k m m') : m'.pointer ≡ m.pointer + k [ZMOD m.cells.size] := by
  rw [h.size]
  exact h.pointer

theorem value (h : Rotated n k m m') :
    m'.cells.getD (cellAt m.cells.size m'.pointer) 0 =
      m.cells.getD (cellAt m.cells.size m.pointer) 0 := by
  rw [h.cells, Array.getD_eq_getD_getElem?, Array.getD_eq_getD_getElem?,
    getElem?_rotateCells h.pos h.pointer_size]

theorem current (h : Rotated n k m m') : m'.current = m.current := by
  obtain ⟨hindex, hindex'⟩ := h.index
  unfold Machine.current
  rw [hindex, hindex']
  exact congrArg Except.ok h.value

theorem set (h : Rotated n k m m') (b : UInt8) :
    Rotated n k (m.set (cellAt m.cells.size m.pointer) b) (m'.set (cellAt m.cells.size m'.pointer) b) where
  size := (size_set ..).trans h.size
  cells := by
    unfold Machine.set
    rw [h.cells]
    exact rotateCells_set h.pos h.pointer_size b
  pointer := h.pointer
  within := (SamePlace.set ..).within h.within
  within' := (SamePlace.set ..).within h.within'

/-- Round the tape, moves lead to the same place. -/
theorem move (h : Rotated n k m m') (d : Int) :
    ∃ m₁ m₁', m.move n d = .ok m₁ ∧ m'.move n d = .ok m₁' ∧ Rotated n k m₁ m₁' := by
  have hn : 0 < n := h.size ▸ h.pos
  have hmove : ∀ m : Machine, m.move n d = .ok { m with pointer := wrapped n m.pointer d } :=
    fun m => if_neg (by omega)
  have hwithin : ∀ m : Machine, m.cells.size = n →
      ({ m with pointer := wrapped n m.pointer d } : Machine).Within := by
    intro m hm
    obtain ⟨-, hlow, hhigh⟩ := move_ok (hmove m)
    constructor
    · omega
    · exact hm ▸ hhigh
  refine ⟨_, _, hmove m, hmove m', h.size, h.cells, ?_, hwithin m h.size, hwithin m' h.size'⟩
  calc wrapped n m'.pointer d ≡ m'.pointer + d [ZMOD n] := Int.mod_modEq ..
    _ ≡ m.pointer + k + d [ZMOD n] := h.pointer.add_right d
    _ = m.pointer + d + k := by ring
    _ ≡ wrapped n m.pointer d + k [ZMOD n] := (Int.mod_modEq ..).symm.add_right k

end Rotated

theorem rotated_rotate (k : Int) {m : Machine} (h : m.Within) :
    Rotated m.cells.size k m (m.rotate k) where
  size := rfl
  cells := rfl
  pointer := Int.mod_modEq ..
  within := h
  within' := by
    have hlow := h.1
    have hhigh := h.2
    have hsize : (m.rotate k).cells.size = m.cells.size := size_rotateCells k m.cells
    have hpointer := natCast_cellAt (n := m.cells.size) (by omega) (m.pointer + k)
    have hlt := cellAt_lt (n := m.cells.size) (by omega) (m.pointer + k)
    unfold Within
    rw [hsize, show (m.rotate k).pointer = (m.pointer + k) % m.cells.size from rfl, ← hpointer]
    omega

end Machine

/-! ## Single instructions -/

/-- The same error, or two that both tell of a read at the end of the input. -/
inductive Error.SameKind : Error → Error → Prop
  | same {e : Error} : SameKind e e
  | exhausted {a b : Int} : SameKind (.inputExhausted a) (.inputExhausted b)

/-- Two states that differ by a rotation of the tape. -/
structure State.Rotated (n : Nat) (k : Int) (s t : State) : Prop where
  machine : Machine.Rotated n k s.machine t.machine
  streams : t.streams = s.streams

namespace State.Rotated

variable {n : Nat} {k : Int} {s t : State}

theorem paired {s' t' : State} {o : Outcome} (h : s'.Rotated n k t') :
    Paired Error.SameKind (State.Rotated n k) (o, s') (o, t') := by
  cases o with
  | normal => exact .normal h
  | failed e => exact .failed .same h

theorem modifyCell (h : s.Rotated n k t) (f : UInt8 → UInt8) :
    Paired Error.SameKind (State.Rotated n k) (s.modifyCell f) (t.modifyCell f) := by
  obtain ⟨hs, ht⟩ := h.machine.index
  rw [modifyCell_of_ok hs, modifyCell_of_ok ht, h.machine.value]
  exact .normal ⟨h.machine.set _, h.streams⟩

theorem move (h : s.Rotated n k t) (d : Int) :
    Paired Error.SameKind (State.Rotated n k) (s.move n d) (t.move n d) := by
  obtain ⟨m, m', hs, ht, hm⟩ := h.machine.move d
  rw [move_of_ok hs, move_of_ok ht]
  exact .normal ⟨hm, h.streams⟩

theorem write (h : s.Rotated n k t) :
    Paired Error.SameKind (State.Rotated n k) s.write t.write := by
  have hcurrent := h.machine.current
  cases hc : s.machine.current with
  | error e =>
    rw [write_of_error hc, write_of_error (hcurrent.trans hc)]
    exact h.paired
  | ok b =>
    rw [write_of_current hc, write_of_current (hcurrent.trans hc), h.streams]
    exact paired ⟨h.machine, rfl⟩

theorem receive (h : s.Rotated n k t) (policy : EofPolicy) (x : ReadResult) :
    Paired Error.SameKind (State.Rotated n k) (s.receive policy x) (t.receive policy x) := by
  unfold State.receive
  cases x.byte? with
  | error f => exact h.paired
  | ok b? =>
    cases b? with
    | some b => exact h.modifyCell _
    | none =>
      cases policy with
      | abort => exact .failed .exhausted h
      | zero => exact h.modifyCell _
      | unchanged | other v => exact h.paired

theorem read (h : s.Rotated n k t) (policy : EofPolicy) :
    Paired Error.SameKind (State.Rotated n k) (s.read policy) (t.read policy) := by
  cases hf : s.streams.flush.1 with
  | failed e =>
    rw [read_of_flush_failed hf, read_of_flush_failed (h.streams ▸ hf), h.streams]
    exact paired ⟨h.machine, rfl⟩
  | normal =>
    have hread : State.Rotated n k ⟨s.machine, s.streams.flush.2.read.2⟩
        ⟨t.machine, s.streams.flush.2.read.2⟩ := ⟨h.machine, rfl⟩
    rw [read_of_flushed hf, read_of_flushed (h.streams ▸ hf), h.streams]
    exact hread.receive policy _

end State.Rotated

/-- Round the tape, runs that differ by a rotation of it stay in step. -/
theorem inStep_rotated (n : Nat) (k : Int) (policy : EofPolicy) :
    InStep ⟨n, policy⟩ ⟨n, policy⟩ Error.SameKind (State.Rotated n k) where
  refl := fun _ => .same
  current := fun _ _ h => h.machine.current.symm
  perform := fun i s t h => by
    cases i with
    | foreign name => exact h.paired
    | op o =>
      cases o with
      | right => exact h.move 1
      | left => exact h.move (-1)
      | increment => exact h.modifyCell (· + 1)
      | decrement => exact h.modifyCell (· - 1)
      | write => exact h.write
      | read => exact h.read policy

/-! ## Executions -/

/-- An execution that fails for want of input names the pointer of that moment. -/
theorem execute_exhausted {fuel : Nat} {settings : Settings} {p : Program} {s s' : State} {a : Int}
    (h : execute fuel settings p s = some (.failed (.inputExhausted a), s')) :
    a = s'.machine.pointer := by
  obtain ⟨v, -, ho, -⟩ | ⟨modulus, done, -, hreach⟩ := execute_reaches h
  · cases ho
  · exact hreach.readsNothing.1

/-- The errors of two runs that differ by a rotation: the pointer that is named at the end of the input
is moved with the tape, and nothing else is different. -/
inductive Error.Rotated (n : Nat) (k : Int) : Error → Error → Prop
  | same {e : Error} : (∀ a, e ≠ .inputExhausted a) → Rotated n k e e
  | exhausted {a b : Int} :
      b ≡ a + k [ZMOD n] → Rotated n k (.inputExhausted a) (.inputExhausted b)

theorem Error.SameKind.rotated {n : Nat} {k : Int} {e f : Error} (h : e.SameKind f)
    (hpointers : ∀ a b, e = .inputExhausted a → f = .inputExhausted b → b ≡ a + k [ZMOD n]) :
    e.Rotated n k f := by
  cases h with
  | exhausted => exact .exhausted (hpointers _ _ rfl rfl)
  | same =>
    cases e with
    | inputExhausted a => exact .exhausted (hpointers a a rfl rfl)
    | _ => exact .same nofun

theorem execute_rotated (fuel : Nat) (settings : Settings) (p : Program) {s t : State} {k : Int}
    (h : s.Rotated s.machine.cells.size k t) :
    Option.Rel (Paired (Error.Rotated s.machine.cells.size k) (State.Rotated s.machine.cells.size k))
      (execute fuel { settings with wrap := .tape } p s)
      (execute fuel { settings with wrap := .tape } p t) := by
  have hsize : t.machine.cells.size = s.machine.cells.size := h.machine.size'
  have hrel : Option.Rel (Paired Error.SameKind (State.Rotated s.machine.cells.size k))
      (execute fuel { settings with wrap := .tape } p s)
      (execute fuel { settings with wrap := .tape } p t) := by
    simp only [execute, PointerWrap.modulus, hsize]
    exact (inStep_rotated _ k settings.onEof).run fuel _ h
  cases hx : execute fuel { settings with wrap := .tape } p s <;>
    cases hy : execute fuel { settings with wrap := .tape } p t <;> rw [hx, hy] at hrel
  · exact .none
  · cases hrel
  · cases hrel
  · obtain ⟨⟨hst⟩ | ⟨he, hst⟩⟩ := hrel
    · exact .some (.normal hst)
    · refine .some (.failed (he.rotated ?_) hst)
      rintro a b rfl rfl
      rw [execute_exhausted hx, execute_exhausted hy]
      exact hst.machine.pointer

/-- Where the pointer wraps round the tape and means a cell at the beginning, whatever is run on
whatever streams: if all cells and the pointer are moved by `k` round the tape, the run ends exactly if
it did, in the same way, with the same streams, and with all cells and the pointer moved by `k`; and if
it ends for want of input, so is the pointer that it names. Cell `i` is moved to the place `i + k`,
counted round the tape; moved by nothing, the cells stay, and a pointer that counted from the end counts
from the beginning. -/
theorem tape_wrap_ignores_rotation (settings : Settings) (p : Program) (m : Machine) (st : Streams)
    (k : Int) (hlow : -(m.cells.size : Int) ≤ m.pointer) (hhigh : m.pointer < m.cells.size) :
    (∀ fuel, Option.Rel
      (Paired (Error.Rotated m.cells.size k) (State.Rotated m.cells.size k))
      (execute fuel { settings with wrap := .tape } p ⟨m, st⟩)
      (execute fuel { settings with wrap := .tape } p ⟨m.rotate k, st⟩)) ∧
    (∀ i < m.cells.size,
      (m.rotate k).cells[(((i : Int) + k) % m.cells.size).toNat]? = m.cells[i]?) ∧
    m.rotate 0 = { m with pointer := m.pointer % m.cells.size } := by
  refine ⟨fun fuel => ?_, fun i hi => ?_, m.rotate_zero⟩
  · have hrotated : State.Rotated m.cells.size k ⟨m, st⟩ ⟨m.rotate k, st⟩ :=
      ⟨Machine.rotated_rotate k ⟨hlow, hhigh⟩, rfl⟩
    exact execute_rotated fuel settings p (s := ⟨m, st⟩) hrotated
  · have hmoved : (Machine.rotateCells k m.cells)[Machine.cellAt m.cells.size (i + k)]? =
        m.cells[Machine.cellAt m.cells.size i]? :=
      Machine.getElem?_rotateCells (by omega) (.refl _)
    rw [Machine.cellAt_natCast hi] at hmoved
    exact hmoved

/-- On three cells with the pointer on the second one, as -2, the program `+<<,` fails for want of input
at cell 2 after it has changed cell 1. Moved by 4, the cells and the pointer are one further on: the
pointer is 2 at the beginning, cell 2 is changed, and cell 0 is named. -/
theorem tape_wrap_ignores_rotation_over_the_end :
    let p : Program := .instr (.op .increment) (.instr (.op .left) (.instr (.op .left)
      (.instr (.op .read) .nil)))
    let m : Machine := ⟨#[7, 8, 9], -2⟩
    (-(m.cells.size : Int) ≤ m.pointer ∧ m.pointer < m.cells.size) ∧
    m.rotate 4 = ⟨#[9, 7, 8], 2⟩ ∧
    ∃ s' t', execute 5 { wrap := .tape } p ⟨m, {}⟩ = some (.failed (.inputExhausted 2), s') ∧
      execute 5 { wrap := .tape } p ⟨m.rotate 4, {}⟩ = some (.failed (.inputExhausted 0), t') ∧
      Paired (Error.Rotated 3 4) (State.Rotated 3 4) (.failed (.inputExhausted 2), s')
        (.failed (.inputExhausted 0), t') ∧
      s'.machine.cells = #[7, 9, 9] ∧ t'.machine.cells = #[9, 7, 9] := by
  intro p m
  have hrun := (tape_wrap_ignores_rotation {} p m {} 4 (by decide) (by decide)).1 5
  have hrotate : m.rotate 4 = ⟨#[9, 7, 8], 2⟩ := by decide
  rw [hrotate] at hrun ⊢
  refine ⟨⟨by decide, by decide⟩, rfl, _, _, rfl, rfl, ?_, rfl, rfl⟩
  cases hrun with
  | some h => exact h

end ByteTape
