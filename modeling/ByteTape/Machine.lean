/-
The machine: a tape of byte cells and a pointer. The pointer is any integer. On a tape of `n`
cells a pointer from 0 to `n - 1` means that cell, one from `-n` to -1 counts from the end, and
any other means none: that shows only when the cell is touched.
-/
import ByteTape.Error

namespace ByteTape

/-- A tape and a pointer. -/
structure Machine where
  cells : Array UInt8
  pointer : Int := 0
  deriving DecidableEq

namespace Machine

/-- How many cells the tape of a new machine has. -/
def defaultSize : Nat := 30000

/-- A machine of `n` zero cells with the pointer on the first. -/
def fresh (n : Nat) : Machine := { cells := Array.replicate n 0 }

/-! ## Cells -/

/-- The least and the largest integer that are looked at as a pointer or a number of cells. -/
def leastIndex : Int := -9223372036854775808

def largestIndex : Int := 9223372036854775807

/-- Neither too small nor too large to be looked at. -/
def fits (n : Int) : Prop := leastIndex ≤ n ∧ n ≤ largestIndex

instance (n : Int) : Decidable (fits n) := inferInstanceAs (Decidable (_ ∧ _))

/-- Which cell of `n` a pointer means. -/
def locate (n : Nat) (p : Int) : Except Error Nat :=
  if 0 ≤ p ∧ p < n then .ok p.toNat
  else if p < 0 ∧ 0 ≤ p + n then .ok (p + n).toNat
  else if fits p then .error .outsideTape
  else .error .pointerTooWide

/-- Which cell the pointer means. -/
def index (m : Machine) : Except Error Nat := locate m.cells.size m.pointer

/-- The value of the cell the pointer means. -/
def current (m : Machine) : Except Error UInt8 := m.index.map fun i => m.cells.getD i 0

/-- The machine with another value in cell `i`. -/
def set (m : Machine) (i : Nat) (b : UInt8) : Machine :=
  { m with cells := m.cells.setIfInBounds i b }

theorem locate_lt {n : Nat} {p : Int} {i : Nat} (h : locate n p = .ok i) : i < n := by
  unfold locate at h
  split at h
  · cases h; omega
  · split at h
    · cases h; omega
    · split at h <;> cases h

theorem locate_nat {n i : Nat} (h : i < n) : locate n (i : Int) = .ok i := by
  unfold locate
  rw [if_pos ⟨by omega, by omega⟩, Int.toNat_natCast]

@[simp] theorem size_set (m : Machine) (i : Nat) (b : UInt8) :
    (m.set i b).cells.size = m.cells.size := by simp [set]

@[simp] theorem pointer_set (m : Machine) (i : Nat) (b : UInt8) :
    (m.set i b).pointer = m.pointer := rfl

/-! ## Moves -/

/-- The pointer after a move by `d`, wrapped round `modulus` cells. -/
def wrapped (modulus : Nat) (p d : Int) : Int := (p + d) % (modulus : Int)

/-- The machine with its pointer moved by `d`; round no cells nothing can be wrapped. -/
def move (modulus : Nat) (d : Int) (m : Machine) : Except Error Machine :=
  if modulus = 0 then .error .emptyTape
  else .ok { m with pointer := wrapped modulus m.pointer d }

/-! ## Working on a machine by hand -/

/-- Puts an integer, which has to be a byte, into the cell a pointer means. The pointer is first
asked to be a possible one, then the value to be a byte, then the cell to be there. -/
def poke (m : Machine) (p value : Int) : Except Error Machine :=
  match locate m.cells.size p, byteOf? value with
  | .error .pointerTooWide, _ => .error .pointerTooWide
  | _, none => .error .notAByte
  | .error e, _ => .error e
  | .ok i, some b => .ok (m.set i b)

/-- Puts several integers into cells, in order. -/
def pokeAll (m : Machine) : List (Int × Int) → Except Error Machine
  | [] => .ok m
  | (p, v) :: rest => match m.poke p v with
    | .error e => .error e
    | .ok m => m.pokeAll rest

/-- A number of cells. -/
def countOf (n : Int) : Except Error Nat :=
  if ¬fits n then .error .countTooWide
  else if n < 0 then .error .negativeCount
  else .ok n.toNat

/-- Appends zero cells to the tape. -/
def grow (m : Machine) (n : Int) : Except Error Machine :=
  (countOf n).map fun k => { m with cells := m.cells ++ Array.replicate k 0 }

/-- Cuts the tape to its first cells; a negative length counts from the end. -/
def shrink (m : Machine) (n : Int) : Machine :=
  { m with cells := m.cells.take (if n < 0 then (m.cells.size + n).toNat else n.toNat) }

/-- A machine of a given size with values in some cells and the pointer set. -/
def build (size : Int) (cells : List (Int × Int)) (pointer : Int) : Except Error Machine :=
  match countOf size with
  | .error e => .error e
  | .ok n => ({ fresh n with pointer } : Machine).pokeAll cells

/-- The cells that are not zero, with their positions, in ascending order. -/
def nonzero (m : Machine) : List (Nat × UInt8) :=
  (m.cells.toList.zipIdx.filter fun c => c.1 != 0).map fun c => (c.2, c.1)

end Machine

end ByteTape
