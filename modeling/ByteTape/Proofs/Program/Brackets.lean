/-
Which sequences of tokens are programs, told from the levels alone. Where some beginning closes
more loops than it has opened, the arrangement stops at the first loop end that does so. Otherwise,
where loops are left open, it names the last place but the end at which none was: the outermost
and leftmost of the loops that are never closed. Otherwise there is a program.
-/
import ByteTape.Proofs.Program.Spelling
import Mathlib.Order.Bounds.Basic

namespace ByteTape.Program

/-- The token at `i` opens a loop that no later token closes: from there on the level stays above
the one at which the loop was opened. -/
def Unclosed (ts : List Token) (i : Nat) : Prop :=
  ts[i]? = some .loopBegin ∧ ∀ k, i < k → level ts i < level ts k

/-! ## A program and a bracket too many -/

section

variable (p : Program) (rest : List Token)

theorem level_tokens_append {k : Nat} (hk : k ≤ p.tokens.length) :
    level (p.tokens ++ rest) k = level p.tokens k := by
  rw [level_append, Nat.sub_eq_zero_of_le hk, level_zero, add_zero]

theorem level_after_tokens (k : Nat) :
    level (p.tokens ++ rest) (p.tokens.length + k) = level rest k := by
  rw [level_append_right (Nat.le_add_right _ _), balance_tokens, zero_add, Nat.add_sub_cancel_left]

/-- The loop end after a program is the first to close what has not been opened. -/
theorem isLeast_strayEnd :
    IsLeast {i | level (p.tokens ++ .loopEnd :: rest) (i + 1) = -1} p.tokens.length := by
  constructor
  · show level _ _ = -1
    rw [level_after_tokens]
    simp [level]
  · intro i hi
    by_contra hlt
    have hk : i + 1 ≤ p.tokens.length := by omega
    have hlevel := NeverBelow.tokens p (i + 1)
    rw [← level_tokens_append p (.loopEnd :: rest) hk, hi] at hlevel
    omega

theorem level_strayBegin : level (p.tokens ++ .loopBegin :: rest) p.tokens.length = 0 := by
  rw [level_tokens_append p _ (le_refl _), level_length, balance_tokens]

variable {rest}

/-- Behind a loop begin that nothing closes, the level stays above zero. -/
theorem level_strayBegin_pos (h : NeverBelow rest) {k : Nat} (hk : p.tokens.length < k) :
    0 < level (p.tokens ++ .loopBegin :: rest) k := by
  obtain ⟨n, rfl⟩ : ∃ n, k = p.tokens.length + (n + 1) := ⟨k - p.tokens.length - 1, by omega⟩
  have := h n
  rw [level_after_tokens]
  simp only [level, List.take_succ_cons, balance_loopBegin] at this ⊢
  omega

theorem neverBelow_strayBegin (h : NeverBelow rest) :
    NeverBelow (p.tokens ++ .loopBegin :: rest) :=
  (NeverBelow.tokens p).append h.loopBegin

/-- The loop begin after a program stands at the last place but the end where no loop is open. -/
theorem isGreatest_strayBegin (h : NeverBelow rest) :
    IsGreatest {k | k < (p.tokens ++ .loopBegin :: rest).length ∧
      level (p.tokens ++ .loopBegin :: rest) k = 0} p.tokens.length := by
  constructor
  · exact ⟨by simp, level_strayBegin p rest⟩
  · rintro k ⟨-, hk⟩
    by_contra hlt
    have := level_strayBegin_pos p h (k := k) (by omega)
    omega

/-- The loop begin after a program is the leftmost that is never closed. -/
theorem isLeast_strayBegin (h : NeverBelow rest) :
    IsLeast {i | Unclosed (p.tokens ++ .loopBegin :: rest) i} p.tokens.length := by
  have hzero := level_strayBegin p rest
  constructor
  · refine ⟨by simp, fun k hk => ?_⟩
    rw [hzero]
    exact level_strayBegin_pos p h hk
  · rintro i ⟨-, hi⟩
    by_contra hlt
    -- a loop opened earlier and still open here would leave the level here above its own
    have := hi p.tokens.length (by omega)
    have := neverBelow_strayBegin p h i
    omega

end

/-! ## The outcome -/

/-- What arranging a sequence of tokens comes to. If some level is negative, it fails at the least
offset behind which the level is -1. Otherwise, if the level at the end is positive, it fails at
the greatest offset before the end at which the level is zero: there begins a loop that is never
closed, the leftmost such loop. Otherwise there is a program. -/
theorem outcome_of_levels (ts : List Token) :
    ((∃ k, level ts k < 0) →
      ∃ i, ofTokens ts = .error (.unmatchedEnd i) ∧ IsLeast {i | level ts (i + 1) = -1} i) ∧
    ((∀ k, 0 ≤ level ts k) → 0 < level ts ts.length →
      ∃ i, ofTokens ts = .error (.unmatchedBegin i) ∧
        IsGreatest {k | k < ts.length ∧ level ts k = 0} i ∧ IsLeast {i | Unclosed ts i} i) ∧
    ((∀ k, 0 ≤ level ts k) → level ts ts.length ≤ 0 → ∃ p, ofTokens ts = .ok p) := by
  rcases hv : ofTokens ts with e | p
  · have hverdict := verdict ts
    rw [hv] at hverdict
    cases hverdict with
    | @strayEnd p rest _ hts =>
      have hleast := isLeast_strayEnd p rest
      rw [← hts] at hleast
      have hbelow : ¬ ∀ k, 0 ≤ level ts k := fun h => by
        have := h (p.tokens.length + 1)
        rw [hleast.1] at this
        omega
      exact ⟨fun _ => ⟨_, rfl, hleast⟩, fun h => absurd h hbelow, fun h => absurd h hbelow⟩
    | @strayBegin p rest _ hts hrest =>
      subst hts
      have hnever := neverBelow_strayBegin p hrest
      refine ⟨fun ⟨k, hk⟩ => absurd (hnever k) (by omega),
        fun _ _ => ⟨_, rfl, isGreatest_strayBegin p hrest, isLeast_strayBegin p hrest⟩,
        fun _ hend => ?_⟩
      have hlength : p.tokens.length < (p.tokens ++ .loopBegin :: rest).length := by simp
      have := level_strayBegin_pos p hrest hlength
      omega
  · obtain ⟨-, rfl⟩ := tokens_of_ofTokens hv
    have hnever := NeverBelow.tokens p
    refine ⟨fun ⟨k, hk⟩ => absurd (hnever k) (by omega), fun _ hend => ?_, fun _ _ => ⟨p, rfl⟩⟩
    rw [level_length, balance_tokens] at hend
    omega

/-- `[]][` closes too much at offset 2, `[-][[]` leaves the loop at 3 open, and `[[]]` is fine. -/
theorem outcome_of_levels_three_ways :
    (∃ i, ofTokens [.loopBegin, .loopEnd, .loopEnd, .loopBegin] = .error (.unmatchedEnd i) ∧
      IsLeast {i | level [.loopBegin, .loopEnd, .loopEnd, .loopBegin] (i + 1) = -1} i) ∧
    (∃ i, ofTokens [.loopBegin, .op .decrement, .loopEnd, .loopBegin, .loopBegin, .loopEnd] =
        .error (.unmatchedBegin i) ∧
      Unclosed [.loopBegin, .op .decrement, .loopEnd, .loopBegin, .loopBegin, .loopEnd] i) ∧
    ∃ p, ofTokens [.loopBegin, .loopBegin, .loopEnd, .loopEnd] = .ok p := by
  refine ⟨?_, ?_, ?_⟩
  · exact (outcome_of_levels _).1 ⟨3, by decide⟩
  · obtain ⟨i, hi, -, hleast⟩ := (outcome_of_levels
      [.loopBegin, .op .decrement, .loopEnd, .loopBegin, .loopBegin, .loopEnd]).2.1
      (neverBelow_iff.2 (by decide)) (by decide)
    exact ⟨i, hi, hleast.1⟩
  · exact (outcome_of_levels _).2.2 (neverBelow_iff.2 (by decide)) (by decide)

end ByteTape.Program
