/-
The balance of loop brackets: what a sequence of tokens opens less what it closes. Balances add up,
a program closes all it opens, and no beginning of a program closes more than it has opened.
-/
import ByteTape.Program.Parser
import Mathlib.Tactic

namespace ByteTape.Program

/-! ## Sums -/

@[simp] theorem balance_nil : balance [] = 0 := rfl

@[simp] theorem balance_op (o : Op) (ts : List Token) : balance (.op o :: ts) = balance ts := by
  simp [balance]

@[simp] theorem balance_loopBegin (ts : List Token) :
    balance (.loopBegin :: ts) = balance ts + 1 := by
  simp [balance]; ring

@[simp] theorem balance_loopEnd (ts : List Token) :
    balance (.loopEnd :: ts) = balance ts - 1 := by
  simp [balance]; ring

@[simp] theorem balance_append (ts us : List Token) :
    balance (ts ++ us) = balance ts + balance us := by
  simp [balance]; ring

theorem balance_cons (t : Token) (ts : List Token) :
    balance (t :: ts) = balance [t] + balance ts := by
  rw [← balance_append, List.singleton_append]

@[simp] theorem balance_instruction (i : Instruction) : balance i.tokens = 0 := by
  cases i <;> rfl

/-- A program closes every loop it opens. -/
@[simp] theorem balance_tokens (p : Program) : balance p.tokens = 0 := by
  induction p with
  | nil => rfl
  | instr i rest ih => simp [tokens, ih]
  | loop body rest ihb ih => simp [tokens, ihb, ih]

/-! ## Levels -/

/-- How many more loops the first `k` tokens open than they close. -/
def level (ts : List Token) (k : Nat) : Int := balance (ts.take k)

@[simp] theorem level_zero (ts : List Token) : level ts 0 = 0 := by
  simp [level]

@[simp] theorem level_length (ts : List Token) : level ts ts.length = balance ts := by
  simp [level]

theorem level_cons_succ (t : Token) (ts : List Token) (k : Nat) :
    level (t :: ts) (k + 1) = balance [t] + level ts k := by
  rw [level, List.take_succ_cons, balance_cons, level]

theorem level_append (ts us : List Token) (k : Nat) :
    level (ts ++ us) k = level ts k + level us (k - ts.length) := by
  simp [level, List.take_append]

/-- Past the first part, a level counts on from the balance of that part. -/
theorem level_append_right {ts us : List Token} {k : Nat} (h : ts.length ≤ k) :
    level (ts ++ us) k = balance ts + level us (k - ts.length) := by
  rw [level_append]
  congr 1
  unfold level
  rw [List.take_of_length_le h]

/-- Nowhere are more loops closed than have been opened. -/
def NeverBelow (ts : List Token) : Prop := ∀ k, 0 ≤ level ts k

/-- Only the beginnings of the sequence count. -/
theorem neverBelow_iff {ts : List Token} :
    NeverBelow ts ↔ ∀ k < ts.length + 1, 0 ≤ level ts k := by
  constructor
  · intro h k _
    exact h k
  · intro h k
    rcases Nat.lt_or_ge k (ts.length + 1) with hk | hk
    · exact h k hk
    · have := h ts.length (by omega)
      unfold level at this ⊢
      rwa [List.take_of_length_le (by omega), ← List.take_length (l := ts)]

namespace NeverBelow

theorem nil : NeverBelow [] := fun k => by simp [level]

theorem append {ts us : List Token} (ht : NeverBelow ts) (hu : NeverBelow us) :
    NeverBelow (ts ++ us) := by
  intro k
  have h1 := ht k
  have h2 := hu (k - ts.length)
  rw [level_append]
  omega

/-- A token that closes no loop may stand in front. -/
theorem cons {t : Token} {ts : List Token} (h : NeverBelow ts) (ht : 0 ≤ balance [t]) :
    NeverBelow (t :: ts) := by
  intro k
  cases k with
  | zero => simp
  | succ k =>
    have hrest := h k
    rw [level_cons_succ]
    omega

theorem op (o : Op) {ts : List Token} (h : NeverBelow ts) : NeverBelow (.op o :: ts) :=
  h.cons (by simp)

theorem loopBegin {ts : List Token} (h : NeverBelow ts) : NeverBelow (.loopBegin :: ts) :=
  h.cons (by simp)

/-- A loop end may follow where a loop is open. -/
theorem closed {ts : List Token} (h : NeverBelow ts) (hopen : 0 ≤ balance ts) :
    NeverBelow (.loopBegin :: ts ++ [.loopEnd]) := by
  intro k
  rcases Nat.lt_or_ge k (ts.length + 2) with hk | hk
  · rw [level_append]
    have h1 := h.loopBegin k
    have h2 : k - (Token.loopBegin :: ts).length = 0 := by simp only [List.length_cons]; omega
    rw [h2, level_zero]
    omega
  · unfold level
    rw [List.take_of_length_le (by simp; omega)]
    simp
    omega

/-- A program nowhere closes more loops than it has opened. -/
theorem tokens (p : Program) : NeverBelow p.tokens := by
  induction p with
  | nil => exact .nil
  | instr i rest ih =>
    cases i with
    | op o => exact ih.op o
    | foreign name => exact ih
  | loop body rest ihb ih =>
    have := (ihb.closed (by simp)).append ih
    simpa [Program.tokens] using this

end NeverBelow

end ByteTape.Program
