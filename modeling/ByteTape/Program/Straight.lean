/-
Operations in a row, without loops. How far a row moves the pointer can be read off it, and so can by
how much it changes each cell, where a cell is named by its offset from the one at which the row
begins.
-/
import ByteTape.Program

namespace ByteTape

/-- A program of operations in a row. -/
def Program.ofOps : List Op → Program
  | [] => .nil
  | o :: rest => .instr (.op o) (ofOps rest)

namespace Op

/-- A step of the pointer. -/
def IsMove (o : Op) : Prop := o = .right ∨ o = .left

/-- A change of the current cell by one. -/
def IsChange (o : Op) : Prop := o = .increment ∨ o = .decrement

/-- A move or a change: an operation that does not ask the streams. -/
def OnTape (o : Op) : Prop := o.IsMove ∨ o.IsChange

instance (o : Op) : Decidable o.IsMove := inferInstanceAs (Decidable (_ ∨ _))

instance (o : Op) : Decidable o.IsChange := inferInstanceAs (Decidable (_ ∨ _))

instance (o : Op) : Decidable o.OnTape := inferInstanceAs (Decidable (_ ∨ _))

/-- How far an operation moves the pointer. -/
def shift : Op → Int
  | .right => 1
  | .left => -1
  | .increment | .decrement | .write | .read => 0

/-- By how much an operation on the tape changes the current cell. -/
def change : Op → Int
  | .increment => 1
  | .decrement => -1
  | .right | .left | .write | .read => 0

/-- Moves to the right less moves to the left. -/
def netShift (ops : List Op) : Int := (ops.count .right : Int) - ops.count .left

/-- Increments less decrements. -/
def netChange (ops : List Op) : Int := (ops.count .increment : Int) - ops.count .decrement

/-- The change of each operation, with the offset at which it is made, for a row that begins at a
given offset. -/
def changesFrom (offset : Int) : List Op → List (Int × Int)
  | [] => []
  | o :: rest => (offset, o.change) :: changesFrom (offset + o.shift) rest

/-- The sum of the changes at the offsets that are the same as `k` when they are counted round `M`
cells. -/
def sumAt (M : Nat) (k : Int) : List (Int × Int) → Int
  | [] => 0
  | c :: changes => (if c.1 % M = k % M then c.2 else 0) + sumAt M k changes

/-- By how much a row changes the cell at an offset, counted round `M` cells. -/
def netChangeAt (M : Nat) (k : Int) (ops : List Op) : Int := sumAt M k (changesFrom 0 ops)

/-! ## One operation in front -/

theorem netShift_cons (o : Op) (ops : List Op) : netShift (o :: ops) = o.shift + netShift ops := by
  unfold netShift
  cases o <;> simp [shift] <;> omega

theorem netChange_cons (o : Op) (ops : List Op) :
    netChange (o :: ops) = o.change + netChange ops := by
  unfold netChange
  cases o <;> simp [change] <;> omega

/-! ## Rows of one kind -/

theorem netShift_of_changes {ops : List Op} (h : ∀ o ∈ ops, o.IsChange) : netShift ops = 0 := by
  induction ops with
  | nil => rfl
  | cons o ops ih =>
    rw [List.forall_mem_cons] at h
    rw [netShift_cons, ih h.2]
    rcases h.1 with rfl | rfl <;> rfl

/-- A row of changes makes all of them where it begins. -/
theorem sumAt_of_changes {ops : List Op} (h : ∀ o ∈ ops, o.IsChange) (M : Nat) (k offset : Int) :
    sumAt M k (changesFrom offset ops) = if offset % M = k % M then netChange ops else 0 := by
  induction ops generalizing offset with
  | nil => split <;> rfl
  | cons o ops ih =>
    rw [List.forall_mem_cons] at h
    have hshift : o.shift = 0 := by rcases h.1 with rfl | rfl <;> rfl
    rw [changesFrom, sumAt, hshift, Int.add_zero, ih h.2, netChange_cons]
    split <;> rfl

theorem sumAt_of_moves {ops : List Op} (h : ∀ o ∈ ops, o.IsMove) (M : Nat) (k offset : Int) :
    sumAt M k (changesFrom offset ops) = 0 := by
  induction ops generalizing offset with
  | nil => rfl
  | cons o ops ih =>
    rw [List.forall_mem_cons] at h
    have hchange : o.change = 0 := by rcases h.1 with rfl | rfl <;> rfl
    rw [changesFrom, sumAt, hchange, ih h.2]
    split <;> rfl

end Op

end ByteTape
