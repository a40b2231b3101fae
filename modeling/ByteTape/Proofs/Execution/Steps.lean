/-
Steps, runs and fuel. A step either performs the instruction it comes upon, and only then changes
the state, or it is quiet: it looks at the current cell, if at anything, and arranges the stack. A
run is the step function applied again and again, and an end once reached stays reached. So an
execution has at most one result: below some number of steps it has none, and from that number on
always the same.
-/
import ByteTape.Execution.Stack
import Mathlib.Tactic

namespace ByteTape

variable {r : Rules}

/-! ## One step -/

/-- Where a run stands when what it was to do next has come to an outcome. -/
def Progress.after (stack : List Frame) (s : State) : Outcome → Progress
  | .normal => .running ⟨stack, s⟩
  | .failed e => .ended (.failed e) s

namespace Config

/-- Where the guard of a loop leads: past the loop, or to its body on top of what comes after. -/
def guard (body : Program) (past : List Frame) (s : State) : Progress :=
  match s.machine.current with
  | .error e => .ended (.failed e) s
  | .ok b => if b = 0 then .running ⟨past, s⟩ else .running ⟨⟨some body, body⟩ :: past, s⟩

theorem step_perform (body : Option Program) (i : Instruction) (rest : Program)
    (outer : List Frame) (s : State) :
    step r ⟨⟨body, .instr i rest⟩ :: outer, s⟩ =
      .after (⟨body, rest⟩ :: outer) (i.perform r s).2 (i.perform r s).1 := by
  rcases h : i.perform r s with ⟨_ | e, s'⟩ <;> simp only [step, h, Progress.after]

/-- A loop is entered through its guard. -/
theorem step_loop (body : Option Program) (inner rest : Program) (outer : List Frame) (s : State) :
    step r ⟨⟨body, .loop inner rest⟩ :: outer, s⟩ = guard inner (⟨body, rest⟩ :: outer) s := rfl

/-- A loop body at its end is back at the guard, as if the loop stood there still. -/
theorem step_again (body : Program) (outer : List Frame) (s : State) :
    step r ⟨⟨some body, .nil⟩ :: outer, s⟩ = guard body outer s := rfl

theorem eq_of_next? {c : Config} {i : Instruction} (h : c.next? = some i) :
    ∃ body rest outer, c = ⟨⟨body, .instr i rest⟩ :: outer, c.state⟩ := by
  obtain ⟨stack, s⟩ := c
  unfold next? at h
  split at h
  · cases h
    rename_i body rest outer hstack
    cases hstack
    exact ⟨body, rest, outer, rfl⟩
  · cases h

theorem guard_quiet (body : Program) (past : List Frame) (s : State) :
    (∃ stack, ∀ t, t.machine.current = s.machine.current → guard body past t = .running ⟨stack, t⟩) ∨
    ∃ o, ∀ t, t.machine.current = s.machine.current → guard body past t = .ended o t := by
  unfold guard
  rcases hc : s.machine.current with e | b
  · exact .inr ⟨.failed e, fun t ht => by rw [ht]⟩
  · by_cases hb : b = 0
    · exact .inl ⟨past, fun t ht => by simp only [ht, if_pos hb]⟩
    · exact .inl ⟨⟨some body, body⟩ :: past, fun t ht => by simp only [ht, if_neg hb]⟩

/-- A quiet step leaves the state, and leads where the stack and the current cell say: under any
rules, from any state with the same current cell, to the same stack or the same end. -/
theorem step_quiet {stack : List Frame} {s : State} (hnext : (Config.mk stack s).next? = none) :
    (∃ stack', ∀ r t, t.machine.current = s.machine.current →
      step r ⟨stack, t⟩ = .running ⟨stack', t⟩) ∨
    ∃ o, ∀ r t, t.machine.current = s.machine.current → step r ⟨stack, t⟩ = .ended o t := by
  match stack with
  | [] => exact .inr ⟨.normal, fun _ _ _ => rfl⟩
  | ⟨body, .instr i rest⟩ :: outer => cases hnext
  | ⟨body, .loop inner rest⟩ :: outer =>
    obtain ⟨stack', h⟩ | ⟨o, h⟩ := guard_quiet inner (⟨body, rest⟩ :: outer) s
    · exact .inl ⟨stack', fun _ => h⟩
    · exact .inr ⟨o, fun _ => h⟩
  | ⟨none, .nil⟩ :: outer => exact .inl ⟨outer, fun _ _ _ => rfl⟩
  | ⟨some body, .nil⟩ :: outer =>
    obtain ⟨stack', h⟩ | ⟨o, h⟩ := guard_quiet body outer s
    · exact .inl ⟨stack', fun _ => h⟩
    · exact .inr ⟨o, fun _ => h⟩

end Config

/-! ## Steps in a row -/

namespace Progress

/-- `n` steps on; an end stays where it is. -/
def advance (r : Rules) : Nat → Progress → Progress
  | 0, g => g
  | n + 1, .running c => (c.step r).advance r n
  | _ + 1, .ended o s => .ended o s

/-- What has come out, at an end. -/
def result? : Progress → Option (Outcome × State)
  | .running _ => none
  | .ended o s => some (o, s)

@[simp] theorem advance_zero (g : Progress) : g.advance r 0 = g := by
  cases g <;> rfl

@[simp] theorem advance_running (n : Nat) (c : Config) :
    (running c).advance r (n + 1) = (c.step r).advance r n := rfl

@[simp] theorem advance_ended (n : Nat) (o : Outcome) (s : State) :
    (ended o s).advance r n = .ended o s := by
  cases n <;> rfl

theorem advance_add (m n : Nat) (g : Progress) :
    g.advance r (m + n) = (g.advance r m).advance r n := by
  induction m generalizing g with
  | zero => simp
  | succ m ih =>
    rw [Nat.succ_add]
    cases g with
    | running c => simp only [advance_running, ih]
    | ended o s => simp

end Progress

/-- A run is so many steps in a row. -/
theorem Config.run_eq_advance (n : Nat) (c : Config) :
    c.run r n = ((Progress.running c).advance r n).result? := by
  induction n generalizing c with
  | zero => rfl
  | succ n ih =>
    rw [Config.run, Progress.advance_running]
    cases c.step r with
    | running c' => exact ih c'
    | ended o s => simp [Progress.result?]

/-- An execution ends before its first step, at a wrap that is not known, or where its steps end. -/
theorem execute_advance {fuel : Nat} {settings : Settings} {p : Program} {s s' : State} {o : Outcome}
    (h : execute fuel settings p s = some (o, s')) :
    (∃ v, settings.wrap = .other v ∧ o = .failed (.unhandledWrap v) ∧ s' = s) ∨
      ∃ modulus, settings.wrap.modulus s.machine.cells.size = .ok modulus ∧
        (Progress.running (.start p s)).advance ⟨modulus, settings.onEof⟩ fuel = .ended o s' := by
  unfold execute at h
  split at h
  · rename_i e he
    cases h
    cases hw : settings.wrap with
    | byte | tape =>
      rw [hw] at he
      cases he
    | other v =>
      rw [hw] at he
      cases he
      exact .inl ⟨v, rfl, rfl, rfl⟩
  · rename_i modulus hm
    rw [Config.run_eq_advance] at h
    refine .inr ⟨modulus, hm, ?_⟩
    cases hg : (Progress.running (.start p s)).advance ⟨modulus, settings.onEof⟩ fuel with
    | running c =>
      rw [hg] at h
      cases h
    | ended o' s₁ =>
      rw [hg] at h
      cases h
      rfl

/-! ## More fuel -/

/-- More fuel keeps a result. -/
theorem Config.run_mono {m n : Nat} {c : Config} {x : Outcome × State} (hmn : m ≤ n)
    (h : c.run r m = some x) : c.run r n = some x := by
  obtain ⟨k, rfl⟩ := Nat.exists_eq_add_of_le hmn
  rw [run_eq_advance] at h ⊢
  rw [Progress.advance_add]
  cases hg : (Progress.running c).advance r m with
  | running c' => rw [hg] at h; cases h
  | ended o s => rw [hg] at h; rw [Progress.advance_ended]; exact h

theorem execute_mono {m n : Nat} {settings : Settings} {p : Program} {s : State}
    {x : Outcome × State} (hmn : m ≤ n) (h : execute m settings p s = some x) :
    execute n settings p s = some x := by
  unfold execute at h ⊢
  split at h
  · exact h
  · exact Config.run_mono hmn h

/-- An execution has one result at most, whatever the fuel. -/
theorem execute_unique {m n : Nat} {settings : Settings} {p : Program} {s : State}
    {x y : Outcome × State} (hx : execute m settings p s = some x)
    (hy : execute n settings p s = some y) : x = y := by
  rcases le_total m n with h | h
  · have := execute_mono h hx
    rw [hy] at this; cases this; rfl
  · have := execute_mono h hy
    rw [hx] at this; cases this; rfl

/-! ## Ends -/

/-- An execution ends, with this outcome and in this state: there is a number of steps short of
which it has no result, and from which on this is its result. -/
def Ends (settings : Settings) (p : Program) (s : State) (o : Outcome) (s' : State) : Prop :=
  ∃ n, ∀ fuel, execute fuel settings p s = if n ≤ fuel then some (o, s') else none

theorem ends_iff {settings : Settings} {p : Program} {s s' : State} {o : Outcome} :
    Ends settings p s o s' ↔ ∃ fuel, execute fuel settings p s = some (o, s') := by
  constructor
  · rintro ⟨n, h⟩
    exact ⟨n, by rw [h, if_pos (le_refl n)]⟩
  · intro h
    classical
    refine ⟨Nat.find h, fun fuel => ?_⟩
    split
    · rename_i hle
      exact execute_mono hle (Nat.find_spec h)
    · rename_i hlt
      cases hx : execute fuel settings p s with
      | none => rfl
      | some x =>
        -- a result below the least number of steps would have to be the same one
        have := execute_unique hx (Nat.find_spec h)
        subst this
        exact absurd hx (Nat.find_min h (by omega))

theorem Ends.unique {settings : Settings} {p : Program} {s s₁ s₂ : State} {o₁ o₂ : Outcome}
    (h₁ : Ends settings p s o₁ s₁) (h₂ : Ends settings p s o₂ s₂) : o₁ = o₂ ∧ s₁ = s₂ := by
  obtain ⟨m, hm⟩ := ends_iff.1 h₁
  obtain ⟨n, hn⟩ := ends_iff.1 h₂
  exact Prod.mk.inj (execute_unique hm hn)

/-- An execution goes on for ever exactly when it has no end. -/
theorem never_ends_iff {settings : Settings} {p : Program} {s : State} :
    (∀ fuel, execute fuel settings p s = none) ↔ ∀ o s', ¬ Ends settings p s o s' := by
  simp only [ends_iff]
  constructor
  · rintro h o s' ⟨fuel, hx⟩
    rw [h fuel] at hx
    cases hx
  · intro h fuel
    rw [Option.eq_none_iff_forall_ne_some]
    rintro ⟨o, s'⟩ hx
    exact h o s' ⟨fuel, hx⟩

end ByteTape
