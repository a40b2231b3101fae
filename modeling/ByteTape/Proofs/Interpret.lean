/-
Interpreting a source, taken apart: a source that cannot be read is an error and nothing more, and
one that can is an execution on a fresh machine and then one flush, whose own fault, where it is
not tolerated, takes the place of the outcome. So streams on which runs stay in step are left in step
by interpreting a source. And going on step by step comes to the same as interpreting it at once.
-/
import ByteTape.Interpret
import ByteTape.Proofs.Execution.Simulation

namespace ByteTape

/-- The streams with the records of reading a source in their log. -/
def Streams.recordLoad (st : Streams) (settings : Settings) (source : List UInt8) : Streams :=
  { st with log := st.log ++ (Program.load settings.strict source).log }

theorem interpret_of_load_error {fuel : Nat} {settings : Settings} {source : List UInt8}
    {st : Streams} {e : Error} (h : (Program.load settings.strict source).result = .error e) :
    interpret fuel settings source st = some (.failed e, st.recordLoad settings source) := by
  unfold interpret
  simp only [h]
  rfl

theorem interpret_of_load_ok {fuel : Nat} {settings : Settings} {source : List UInt8}
    {st : Streams} {p : Program} (h : (Program.load settings.strict source).result = .ok p) :
    interpret fuel settings source st =
      (execute fuel settings p
        ⟨Machine.fresh Machine.defaultSize, st.recordLoad settings source⟩).map fun x =>
          conclude x.1 x.2.streams := by
  unfold interpret Streams.recordLoad
  simp only [h]
  split
  · rename_i hx; rw [hx]; rfl
  · rename_i o s hx; rw [hx]; rfl

theorem interpret_eq_some_iff {fuel : Nat} {settings : Settings} {source : List UInt8}
    {st : Streams} {p : Program} {x : Outcome × Streams}
    (h : (Program.load settings.strict source).result = .ok p) :
    interpret fuel settings source st = some x ↔
      ∃ o s, execute fuel settings p
        ⟨Machine.fresh Machine.defaultSize, st.recordLoad settings source⟩ = some (o, s) ∧
        conclude o s.streams = x := by
  rw [interpret_of_load_ok h, Option.map_eq_some_iff, Prod.exists]

/-! ## The last flush -/

@[simp] theorem conclude_streams (o : Outcome) (st : Streams) :
    (conclude o st).2 = st.flush.2 := by
  unfold conclude
  split <;> rename_i h <;> rw [h]

theorem conclude_of_flushed {st : Streams} (h : st.flush.1 = .normal) (o : Outcome) :
    (conclude o st).1 = o := by
  unfold conclude
  split
  · rfl
  · rename_i e st' hf; rw [hf] at h; cases h

theorem conclude_of_flush_failed {st : Streams} {e : Error} (h : st.flush.1 = .failed e)
    (o : Outcome) : (conclude o st).1 = .failed e := by
  unfold conclude
  split
  · rename_i st' hf; rw [hf] at h; cases h
  · rename_i e' st' hf; rw [hf] at h; exact h

/-! ## One source on two streams -/

namespace Streams.InStep

variable {R : Streams → Streams → Prop}

theorem conclude (hR : Streams.InStep R) {st st' : Streams} (h : R st st') (o : Outcome) :
    (ByteTape.conclude o st).1 = (ByteTape.conclude o st').1 ∧
      R (ByteTape.conclude o st).2 (ByteTape.conclude o st').2 := by
  obtain ⟨houtcome, hflushed⟩ := hR.flush st st' h
  rw [conclude_streams, conclude_streams]
  refine ⟨?_, hflushed⟩
  cases hf : st.flush.1 with
  | normal => rw [conclude_of_flushed hf, conclude_of_flushed (houtcome ▸ hf)]
  | failed e => rw [conclude_of_flush_failed hf, conclude_of_flush_failed (houtcome ▸ hf)]

/-- On streams that are related once the records of reading it are in their logs, interpreting a source
comes to the same outcome and leaves related streams, or goes on for ever on both. -/
theorem interpret (hR : Streams.InStep R) (fuel : Nat) (settings : Settings) (source : List UInt8)
    {st st' : Streams} (h : R (st.recordLoad settings source) (st'.recordLoad settings source)) :
    Option.Rel (fun x y => x.1 = y.1 ∧ R x.2 y.2) (ByteTape.interpret fuel settings source st)
      (ByteTape.interpret fuel settings source st') := by
  cases hload : (Program.load settings.strict source).result with
  | error e =>
    rw [interpret_of_load_error hload, interpret_of_load_error hload]
    exact .some ⟨rfl, h⟩
  | ok p =>
    have hstart : State.Beside R ⟨.fresh Machine.defaultSize, st.recordLoad settings source⟩
        ⟨.fresh Machine.defaultSize, st'.recordLoad settings source⟩ := ⟨rfl, h⟩
    rw [interpret_of_load_ok hload, interpret_of_load_ok hload]
    have hrun := hR.execute fuel settings p hstart
    generalize ByteTape.execute fuel settings p ⟨_, st.recordLoad settings source⟩ = x at hrun ⊢
    generalize ByteTape.execute fuel settings p ⟨_, st'.recordLoad settings source⟩ = y at hrun ⊢
    cases hrun with
    | none => exact .none
    | @some x y hends =>
      obtain ⟨houtcome, hst⟩ := hends
      have hconclude := hR.conclude hst.streams y.1
      refine .some ?_
      dsimp only
      rwa [houtcome]

end Streams.InStep

/-! ## The end of a run -/

/-- Interpreting a program ends where its run has ended and one more flush has followed. A fault of
that flush that is not tolerated is the outcome; otherwise the outcome is the run's own. -/
theorem interpret_program {fuel : Nat} {settings : Settings} {source : List UInt8}
    {st st' : Streams} {p : Program} {o : Outcome}
    (hload : (Program.load settings.strict source).result = .ok p)
    (h : interpret fuel settings source st = some (o, st')) :
    ∃ o₁ s₁, execute fuel settings p ⟨.fresh Machine.defaultSize, st.recordLoad settings source⟩ =
        some (o₁, s₁) ∧
      st' = s₁.streams.flush.2 ∧
      (∀ f, s₁.streams.nextFlushFault = some f → ¬ f.Ordinary → o = .failed (.fault f)) ∧
      ((∀ f, s₁.streams.nextFlushFault = some f → f.Ordinary) → o = o₁) := by
  obtain ⟨o₁, s₁, hx, hend⟩ := (interpret_eq_some_iff hload).1 h
  have hstreams : st' = s₁.streams.flush.2 := by rw [← conclude_streams o₁, hend]
  have houtcome : o = (conclude o₁ s₁.streams).1 := by rw [hend]
  refine ⟨o₁, s₁, hx, hstreams, fun f hf hf' => ?_, fun hf => ?_⟩
  · have hflush : s₁.streams.flush.1 = .failed (.fault f) := by
      rw [Streams.flush_outcome, hf, Fault.outcome_of_not_ordinary hf']
    rw [houtcome, conclude_of_flush_failed hflush]
  · have hflush : s₁.streams.flush.1 = .normal := by
      rw [Streams.flush_outcome, Fault.outcome_of_ordinary hf]
    rw [houtcome, conclude_of_flushed hflush]

/-- An error of interpreting a source is one of reading it, or that of the run, or a fault of the
last flush. -/
theorem interpret_failed {fuel : Nat} {settings : Settings} {source : List UInt8}
    {st st' : Streams} {e : Error} (h : interpret fuel settings source st = some (.failed e, st')) :
    ((Program.load settings.strict source).result = .error e ∧
      st' = st.recordLoad settings source) ∨
    (∃ p s₁, execute fuel settings p ⟨.fresh Machine.defaultSize, st.recordLoad settings source⟩ =
      some (.failed e, s₁)) ∨
    ∃ f, e = .fault f := by
  cases hload : (Program.load settings.strict source).result with
  | error e' =>
    rw [interpret_of_load_error hload] at h
    cases h
    exact .inl ⟨rfl, rfl⟩
  | ok p =>
    obtain ⟨o₁, s₁, hx, -, hraised, hquiet⟩ := interpret_program hload h
    by_cases hf : ∀ f, s₁.streams.nextFlushFault = some f → f.Ordinary
    · exact .inr (.inl ⟨p, s₁, hquiet hf ▸ hx⟩)
    · push Not at hf
      obtain ⟨f, hfault, hf⟩ := hf
      cases hraised f hfault hf
      exact .inr (.inr ⟨f, rfl⟩)

/-! ## One step at a time -/

namespace Interpretation

variable {fuel : Nat} {settings : Settings} {source : List UInt8} {st st' : Streams} {o : Outcome}

/-- What comes out at the end of a run, once the last flush has been made. -/
def result? : Interpretation → Option (Outcome × Streams)
  | .running _ _ => none
  | .flushing o st => some (conclude o st)
  | .finished o st => some (o, st)

@[simp] theorem iterate_finished (n : Nat) (o : Outcome) (st : Streams) :
    next^[n] (.finished o st) = .finished o st :=
  Function.iterate_fixed rfl n

/-- The last flush is all that is missing at the end of a run. -/
theorem result?_iterate_flushing (n : Nat) (o : Outcome) (st : Streams) :
    (next^[n] (.flushing o st)).result? = some (conclude o st) := by
  cases n with
  | zero => rfl
  | succ n => rw [Function.iterate_succ_apply, next, iterate_finished, result?]

theorem result?_iterate_running (r : Rules) (n : Nat) (c : Config) :
    (next^[n] (.running r c)).result? = (c.run r n).map fun x => conclude x.1 x.2.streams := by
  induction n generalizing c with
  | zero => rfl
  | succ n ih =>
    rw [Function.iterate_succ_apply, next, Config.run]
    cases c.step r with
    | running c' => exact ih c'
    | ended o s => exact result?_iterate_flushing n o s.streams

/-- Interpreting a source is so many steps from the start. -/
theorem interpret_eq_result? (fuel : Nat) (settings : Settings) (source : List UInt8) (st : Streams) :
    interpret fuel settings source st = (next^[fuel] (start settings source st)).result? := by
  cases hload : (Program.load settings.strict source).result with
  | error e =>
    have hstart : start settings source st = .finished (.failed e) (st.recordLoad settings source) := by
      simp only [start, hload, Streams.recordLoad]
    rw [interpret_of_load_error hload, hstart, iterate_finished, result?]
  | ok p =>
    rw [interpret_of_load_ok hload, execute]
    simp only [start, hload]
    cases settings.wrap.modulus (Machine.fresh Machine.defaultSize).cells.size with
    | error e => exact (result?_iterate_flushing fuel ..).symm
    | ok modulus => exact (result?_iterate_running ..).symm

/-- Going on until it is finished comes to what interpreting the source comes to, and to nothing else. -/
theorem finished_iff : (∃ n, next^[n] (start settings source st) = .finished o st') ↔
    ∃ fuel, interpret fuel settings source st = some (o, st') := by
  simp only [interpret_eq_result?]
  constructor
  · rintro ⟨n, h⟩
    exact ⟨n, by rw [h, result?]⟩
  · rintro ⟨fuel, h⟩
    refine ⟨fuel + 1, ?_⟩
    rw [Function.iterate_succ_apply']
    generalize next^[fuel] (start settings source st) = i at h
    -- without a result a run is still under way; with one it is finished after one more step
    cases i with
    | running r c => cases h
    | flushing o' st₁ => rw [next, Option.some.inj h]
    | finished o' st₁ =>
      cases h
      rfl

end Interpretation

end ByteTape
