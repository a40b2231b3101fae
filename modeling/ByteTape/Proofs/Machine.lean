/-
What a pointer means on a tape. It means a cell exactly when it lies within the tape, counted from
either end, and then the one at its position, counted round; a move round no more cells than there are
puts it on one of them; and a machine's own errors are those of its pointer.
-/
import ByteTape.Machine
import Mathlib.Data.Int.ModEq
import Mathlib.Tactic

namespace ByteTape

/-- An error of the tape itself: a pointer that means no cell, or one that cannot be wrapped. -/
def Error.OffTape : Error → Prop
  | .outsideTape | .pointerTooWide | .emptyTape => True
  | _ => False

theorem Error.not_offTape_of_isSyntax {e : Error} (h : e.isSyntax) : ¬ e.OffTape := by
  intro hoff
  cases e with
  | outsideTape | pointerTooWide | emptyTape => cases h
  | _ => exact hoff

namespace Machine

/-! ## Pointers -/

/-- The pointer means a cell. -/
def Within (m : Machine) : Prop := -(m.cells.size : Int) ≤ m.pointer ∧ m.pointer < m.cells.size

theorem locate_eq_ok_iff {n : Nat} {p : Int} :
    (∃ i, locate n p = .ok i) ↔ -(n : Int) ≤ p ∧ p < n := by
  unfold locate
  split
  · rename_i h
    exact ⟨fun _ => by omega, fun _ => ⟨_, rfl⟩⟩
  · split
    · rename_i h
      exact ⟨fun _ => by omega, fun _ => ⟨_, rfl⟩⟩
    · constructor
      · rintro ⟨i, hi⟩
        split at hi <;> cases hi
      · intro h
        omega

theorem index_eq_ok_iff {m : Machine} : (∃ i, m.index = .ok i) ↔ m.Within := locate_eq_ok_iff

theorem index_error {m : Machine} {e : Error} (h : m.index = .error e) :
    e = .outsideTape ∨ e = .pointerTooWide := by
  unfold index locate at h
  split at h
  · cases h
  · split at h
    · cases h
    · split at h <;> cases h
      · exact .inl rfl
      · exact .inr rfl

theorem index_ne_fault (m : Machine) (f : Fault) : m.index ≠ .error (.fault f) := fun h => by
  rcases index_error h with he | he <;> cases he

/-- Looking at the current cell fails exactly as looking for it does. -/
theorem current_eq_error_iff {m : Machine} {e : Error} :
    m.current = .error e ↔ m.index = .error e := by
  unfold current
  cases m.index with
  | error f => simp [Except.map]
  | ok i => simp [Except.map]

/-- The current cell holds a value exactly if the pointer means a cell of the tape that holds it. -/
theorem current_eq_ok_iff {m : Machine} {b : UInt8} :
    m.current = .ok b ↔ ∃ i, m.index = .ok i ∧ m.cells[i]? = some b := by
  unfold current
  cases hi : m.index with
  | error e => simp [Except.map]
  | ok i =>
    have hlt : i < m.cells.size := locate_lt hi
    simp [Except.map, hlt]

theorem Within.index_ne_error {m : Machine} (h : m.Within) (e : Error) : m.index ≠ .error e := by
  obtain ⟨i, hi⟩ := index_eq_ok_iff.2 h
  rw [hi]
  exact nofun

theorem size_fresh (n : Nat) : (fresh n).cells.size = n := Array.size_replicate ..

theorem fresh_within {n : Nat} (h : 0 < n) : (fresh n).Within := by
  have hpointer : (fresh n).pointer = 0 := rfl
  unfold Within
  rw [size_fresh, hpointer]
  omega

theorem current_fresh {n : Nat} (h : 0 < n) : (fresh n).current = .ok 0 := by
  refine current_eq_ok_iff.2 ⟨0, ?_, ?_⟩
  · exact locate_nat (by rwa [size_fresh])
  · rw [fresh, Array.getElem?_replicate, if_pos h]

/-! ## Machines that differ in the values of cells -/

/-- The second machine has as many cells and the same pointer. -/
structure SamePlace (m m' : Machine) : Prop where
  size : m'.cells.size = m.cells.size
  pointer : m'.pointer = m.pointer

theorem SamePlace.refl (m : Machine) : SamePlace m m := ⟨rfl, rfl⟩

theorem SamePlace.set (m : Machine) (i : Nat) (b : UInt8) : SamePlace m (m.set i b) :=
  ⟨size_set m i b, pointer_set m i b⟩

theorem SamePlace.within {m m' : Machine} (h : SamePlace m m') (hm : m.Within) : m'.Within := by
  unfold Within at hm ⊢
  rwa [h.size, h.pointer]

/-! ## Positions round a tape -/

/-- The cell at a position, where positions are counted round and round a tape of `n` cells. -/
def cellAt (n : Nat) (p : Int) : Nat := (p % n).toNat

section

variable {n : Nat} {p q : Int}

theorem natCast_cellAt (hn : 0 < n) (p : Int) : (cellAt n p : Int) = p % n :=
  Int.toNat_of_nonneg (Int.emod_nonneg p (by omega))

theorem cellAt_lt (hn : 0 < n) (p : Int) : cellAt n p < n := by
  have hcast := natCast_cellAt hn p
  have hlt : p % n < n := Int.emod_lt_of_pos p (by omega)
  omega

theorem cellAt_eq_iff (hn : 0 < n) : cellAt n p = cellAt n q ↔ p ≡ q [ZMOD n] := by
  rw [← Int.ofNat_inj, natCast_cellAt hn, natCast_cellAt hn]
  rfl

theorem cellAt_natCast {i : Nat} (hi : i < n) : cellAt n i = i := by
  rw [cellAt, Int.emod_eq_of_lt (by omega) (by omega), Int.toNat_natCast]

/-- A pointer that means a cell means the one at its position. -/
theorem locate_of_within (hlow : -(n : Int) ≤ p) (hhigh : p < n) : locate n p = .ok (cellAt n p) := by
  have hn : 0 < n := by omega
  obtain ⟨i, hi⟩ := locate_eq_ok_iff.2 ⟨hlow, hhigh⟩
  suffices h : i = cellAt n p by rw [hi, h]
  unfold locate at hi
  rw [cellAt]
  split at hi
  · rename_i h
    cases hi
    rw [Int.emod_eq_of_lt h.1 h.2]
  · split at hi
    · rename_i h
      cases hi
      rw [← Int.add_emod_right, Int.emod_eq_of_lt h.2 (by omega)]
    · split at hi <;> cases hi

end

/-! ## Moves -/

theorem move_error {modulus : Nat} {d : Int} {m : Machine} {e : Error}
    (h : m.move modulus d = .error e) : modulus = 0 ∧ e = .emptyTape := by
  unfold move at h
  split at h
  · rename_i hm
    cases h
    exact ⟨hm, rfl⟩
  · cases h

/-- A move leaves the cells, and the pointer lies below the modulus afterwards. -/
theorem move_ok {modulus : Nat} {d : Int} {m m' : Machine} (h : m.move modulus d = .ok m') :
    m'.cells = m.cells ∧ 0 ≤ m'.pointer ∧ m'.pointer < modulus := by
  unfold move at h
  split at h
  · cases h
  · rename_i hm
    cases h
    exact ⟨rfl, Int.emod_nonneg _ (by omega), Int.emod_lt_of_pos _ (by omega)⟩

end Machine

end ByteTape
