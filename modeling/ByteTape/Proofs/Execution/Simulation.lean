/-
What holds of whole runs because it holds of single instructions: a property of states that every
instruction keeps is kept by a run, and two runs of one program stay in step when the instructions
do and the guards of loops agree, either throughout or as long as the first run keeps within a bound.
Where the machines are the same it is enough that the calls on the streams agree.
-/
import ByteTape.Proofs.Execution.Operation
import ByteTape.Proofs.Execution.Steps

namespace ByteTape

variable {r r' : Rules}

/-! ## Invariants -/

/-- The state at a stage of a run. -/
def Progress.state : Progress → State
  | .running c => c.state
  | .ended _ s => s

@[simp] theorem Progress.state_after (stack : List Frame) (s : State) (o : Outcome) :
    (Progress.after stack s o).state = s := by
  cases o <;> rfl

/-- A step keeps what every instruction keeps. -/
theorem Config.step_invariant {P : State → Prop} (hP : ∀ (i : Instruction) s, P s → P (i.perform r s).2)
    {c : Config} (h : P c.state) : P (c.step r).state := by
  cases hnext : c.next? with
  | some i =>
    obtain ⟨body, rest, outer, hc⟩ := eq_of_next? hnext
    rw [hc, step_perform, Progress.state_after]
    exact hP i _ h
  | none =>
    obtain ⟨stack, hs⟩ | ⟨o, hs⟩ := step_quiet hnext
    · rw [hs r c.state rfl]
      exact h
    · rw [hs r c.state rfl]
      exact h

/-- A run keeps what every instruction keeps. -/
theorem Config.run_invariant {P : State → Prop} (hP : ∀ (i : Instruction) s, P s → P (i.perform r s).2)
    {n : Nat} {c : Config} {o : Outcome} {s' : State} (h : P c.state)
    (hrun : c.run r n = some (o, s')) : P s' := by
  induction n generalizing c with
  | zero => cases hrun
  | succ n ih =>
    have hstep := step_invariant hP h
    rw [run] at hrun
    cases hs : c.step r with
    | running c' =>
      rw [hs] at hrun hstep
      exact ih hstep hrun
    | ended o' s'' =>
      rw [hs] at hrun hstep
      cases hrun
      exact hstep

/-! ## Two runs in step -/

/-- Two ends that go together: both normal, or both failed with errors that go together, and in
related states. -/
inductive Paired (E : Error → Error → Prop) (R : State → State → Prop) :
    Outcome × State → Outcome × State → Prop
  | normal {s t : State} : R s t → Paired E R (.normal, s) (.normal, t)
  | failed {e f : Error} {s t : State} :
      E e f → R s t → Paired E R (.failed e, s) (.failed f, t)

theorem Paired.outcome_and_state {R : State → State → Prop} {x y : Outcome × State}
    (h : Paired Eq R x y) : x.1 = y.1 ∧ R x.2 y.2 := by
  cases h with
  | normal h => exact ⟨rfl, h⟩
  | failed he h => exact ⟨by rw [he], h⟩

/-- Related states point to the same value, or to no cell alike, and every instruction takes them
to ends that go together, under the rules of either side. -/
structure InStep (r r' : Rules) (E : Error → Error → Prop) (R : State → State → Prop) : Prop where
  refl : ∀ e, E e e
  current : ∀ s t, R s t → s.machine.current = t.machine.current
  perform : ∀ (i : Instruction) s t, R s t → Paired E R (i.perform r s) (i.perform r' t)

namespace InStep

variable {E : Error → Error → Prop} {R : State → State → Prop}

/-- From one stack and related states, runs with the same fuel both have no result, or results
that go together. -/
theorem run (h : InStep r r' E R) (n : Nat) (stack : List Frame) {s t : State} (hst : R s t) :
    Option.Rel (Paired E R) (Config.run r n ⟨stack, s⟩) (Config.run r' n ⟨stack, t⟩) := by
  induction n generalizing stack s t with
  | zero => exact .none
  | succ n ih =>
    rw [Config.run, Config.run]
    cases hnext : (Config.mk stack s).next? with
    | some i =>
      obtain ⟨body, rest, outer, hc⟩ := Config.eq_of_next? hnext
      cases hc
      rw [Config.step_perform, Config.step_perform]
      generalize hx : i.perform r s = x
      generalize hy : i.perform r' t = y
      have hi := h.perform i s t hst
      rw [hx, hy] at hi
      cases hi with
      | normal hst' => exact ih _ hst'
      | failed he hst' => exact .some (.failed he hst')
    | none =>
      have hcurrent := (h.current s t hst).symm
      obtain ⟨stack', hs⟩ | ⟨o, hs⟩ := Config.step_quiet hnext
      · rw [hs r s rfl, hs r' t hcurrent]
        exact ih stack' hst
      · rw [hs r s rfl, hs r' t hcurrent]
        cases o with
        | normal => exact .some (.normal hst)
        | failed e => exact .some (.failed (h.refl e) hst)

/-- Executions from related states on tapes of one length stay in step. -/
theorem execute (h : ∀ r, InStep r r E R) (fuel : Nat) (settings : Settings) (p : Program)
    {s t : State} (hst : R s t) (hsize : s.machine.cells.size = t.machine.cells.size) :
    Option.Rel (Paired E R) (execute fuel settings p s) (execute fuel settings p t) := by
  unfold ByteTape.execute
  rw [← hsize]
  cases settings.wrap.modulus s.machine.cells.size with
  | error e => exact .some (.failed ((h ⟨0, .abort⟩).refl e) hst)
  | ok modulus => exact (h _).run fuel _ hst

end InStep

/-! ## Two runs in step as long as a bound is kept -/

/-- Related states point to the same value, or to no cell alike, and every instruction that keeps the
first of them within a bound takes both to the same outcome and to related states. Once out of bounds,
the first one stays so. -/
structure InStepWhile (r r' : Rules) (B : State → Prop) (R : State → State → Prop) : Prop where
  exceeds : ∀ (i : Instruction) s, ¬ B s → ¬ B (i.perform r s).2
  current : ∀ s t, R s t → s.machine.current = t.machine.current
  perform : ∀ (i : Instruction) s t, R s t → B (i.perform r s).2 →
    ∃ t', i.perform r' t = ((i.perform r s).1, t') ∧ R (i.perform r s).2 t'

namespace InStepWhile

variable {B : State → Prop} {R : State → State → Prop} {s t s' : State} {o : Outcome}

/-- A run that ends within the bound has kept it throughout, and the other one has kept step. -/
theorem run (h : InStepWhile r r' B R) (n : Nat) (stack : List Frame) (hst : R s t)
    (hrun : Config.run r n ⟨stack, s⟩ = some (o, s')) (hs' : B s') :
    ∃ t', Config.run r' n ⟨stack, t⟩ = some (o, t') ∧ R s' t' := by
  induction n generalizing stack s t with
  | zero => cases hrun
  | succ n ih =>
    rw [Config.run] at hrun ⊢
    cases hnext : (Config.mk stack s).next? with
    | some i =>
      obtain ⟨body, rest, outer, hc⟩ := Config.eq_of_next? hnext
      cases hc
      rw [Config.step_perform] at hrun ⊢
      have hi := h.perform i s t hst
      generalize i.perform r s = x at hrun hi
      obtain ⟨_ | e, s₁⟩ := x
      · have hkept : B s₁ := by
          by_contra hs₁
          exact Config.run_invariant (P := fun s => ¬ B s) h.exceeds hs₁ hrun hs'
        obtain ⟨t₁, ht, hst₁⟩ := hi hkept
        rw [ht]
        exact ih _ hst₁ hrun
      · cases hrun
        obtain ⟨t₁, ht, hst₁⟩ := hi hs'
        rw [ht]
        exact ⟨t₁, rfl, hst₁⟩
    | none =>
      have hcurrent := (h.current s t hst).symm
      obtain ⟨stack', hs⟩ | ⟨o', hs⟩ := Config.step_quiet hnext
      · rw [hs r s rfl] at hrun
        rw [hs r' t hcurrent]
        exact ih stack' hst hrun
      · rw [hs r s rfl] at hrun
        cases hrun
        rw [hs r' t hcurrent]
        exact ⟨t, rfl, hst⟩

theorem execute (settings settings' : Settings)
    (h : ∀ modulus, InStepWhile ⟨modulus, settings.onEof⟩ ⟨modulus, settings'.onEof⟩ B R)
    (hst : R s t) (hmodulus : settings'.wrap.modulus t.machine.cells.size =
      settings.wrap.modulus s.machine.cells.size) {fuel : Nat} {p : Program}
    (hrun : execute fuel settings p s = some (o, s')) (hs' : B s') :
    ∃ t', execute fuel settings' p t = some (o, t') ∧ R s' t' := by
  unfold ByteTape.execute at hrun ⊢
  rw [hmodulus]
  cases hm : settings.wrap.modulus s.machine.cells.size with
  | error e =>
    rw [hm] at hrun
    cases hrun
    exact ⟨t, rfl, hst⟩
  | ok modulus =>
    rw [hm] at hrun
    exact (h modulus).run fuel _ hst hrun hs'

end InStepWhile

/-! ## One machine on two streams -/

/-- On related streams every call comes to the same, and leaves related streams. Of what a read
brings, only the byte counts. -/
structure Streams.InStep (R : Streams → Streams → Prop) : Prop where
  write : ∀ (b : UInt8) st st', R st st' →
    (st.write b).1 = (st'.write b).1 ∧ R (st.write b).2 (st'.write b).2
  flush : ∀ st st', R st st' → st.flush.1 = st'.flush.1 ∧ R st.flush.2 st'.flush.2
  read : ∀ st st', R st st' → st.read.1.byte? = st'.read.1.byte? ∧ R st.read.2 st'.read.2

/-- One machine on related streams. -/
structure State.Beside (R : Streams → Streams → Prop) (s t : State) : Prop where
  machine : s.machine = t.machine
  streams : R s.streams t.streams

namespace State.Beside

variable {R : Streams → Streams → Prop} {s t : State}

theorem paired {s' t' : State} {o : Outcome} (h : s'.Beside R t') :
    Paired Eq (State.Beside R) (o, s') (o, t') := by
  cases o with
  | normal => exact .normal h
  | failed e => exact .failed rfl h

theorem modifyCell (h : s.Beside R t) (f : UInt8 → UInt8) :
    Paired Eq (State.Beside R) (s.modifyCell f) (t.modifyCell f) := by
  cases hi : s.machine.index with
  | error e =>
    rw [modifyCell_of_error hi, modifyCell_of_error (h.machine ▸ hi)]
    exact h.paired
  | ok i =>
    rw [modifyCell_of_ok hi, modifyCell_of_ok (h.machine ▸ hi)]
    exact .normal ⟨by rw [h.machine], h.streams⟩

theorem move (h : s.Beside R t) (modulus : Nat) (d : Int) :
    Paired Eq (State.Beside R) (s.move modulus d) (t.move modulus d) := by
  cases hm : s.machine.move modulus d with
  | error e =>
    rw [move_of_error hm, move_of_error (h.machine ▸ hm)]
    exact h.paired
  | ok m =>
    rw [move_of_ok hm, move_of_ok (h.machine ▸ hm)]
    exact .normal ⟨rfl, h.streams⟩

theorem write (h : s.Beside R t) (hwrite : ∀ b,
    (s.streams.write b).1 = (t.streams.write b).1 ∧
      R (s.streams.write b).2 (t.streams.write b).2) :
    Paired Eq (State.Beside R) s.write t.write := by
  cases hc : s.machine.current with
  | error e =>
    rw [write_of_error hc, write_of_error (h.machine ▸ hc)]
    exact h.paired
  | ok b =>
    obtain ⟨houtcome, hst⟩ := hwrite b
    rw [write_of_current hc, write_of_current (h.machine ▸ hc), houtcome]
    exact paired ⟨h.machine, hst⟩

theorem receive (h : s.Beside R t) (policy : EofPolicy) {x y : ReadResult}
    (hxy : x.byte? = y.byte?) :
    Paired Eq (State.Beside R) (s.receive policy x) (t.receive policy y) := by
  simp only [State.receive, hxy]
  cases y.byte? with
  | error f => exact h.paired
  | ok b? =>
    cases b? with
    | some b => exact h.modifyCell _
    | none =>
      cases policy with
      | abort => exact .failed (by rw [h.machine]) h
      | zero => exact h.modifyCell _
      | unchanged => exact .normal h
      | other v => exact .failed rfl h

theorem read (hR : Streams.InStep R) (h : s.Beside R t) (policy : EofPolicy) :
    Paired Eq (State.Beside R) (s.read policy) (t.read policy) := by
  obtain ⟨houtcome, hflushed⟩ := hR.flush _ _ h.streams
  obtain ⟨hbyte, hst⟩ := hR.read _ _ hflushed
  cases hf : s.streams.flush.1 with
  | failed e =>
    rw [read_of_flush_failed hf, read_of_flush_failed (houtcome ▸ hf)]
    exact paired ⟨h.machine, hflushed⟩
  | normal =>
    have hread : State.Beside R ⟨s.machine, s.streams.flush.2.read.2⟩
        ⟨t.machine, t.streams.flush.2.read.2⟩ := ⟨h.machine, hst⟩
    rw [read_of_flushed hf, read_of_flushed (houtcome ▸ hf)]
    exact hread.receive policy hbyte

end State.Beside

/-- Runs of one machine on related streams stay in step. -/
theorem Streams.InStep.inStep {R : Streams → Streams → Prop} (hR : Streams.InStep R) (r : Rules) :
    ByteTape.InStep r r Eq (State.Beside R) where
  refl := fun _ => rfl
  current := fun s t h => by rw [h.machine]
  perform := fun i s t h => by
    cases i with
    | foreign name => exact .failed rfl h
    | op o =>
      cases o with
      | right => exact h.move _ _
      | left => exact h.move _ _
      | increment => exact h.modifyCell (· + 1)
      | decrement => exact h.modifyCell (· - 1)
      | write => exact h.write fun b => hR.write b _ _ h.streams
      | read => exact h.read hR _

/-- Executions of one program on one machine and related streams come to the same outcome, and leave
one machine and related streams, or go on for ever on both. -/
theorem Streams.InStep.execute {R : Streams → Streams → Prop} (hR : Streams.InStep R) (fuel : Nat)
    (settings : Settings) (p : Program) {s t : State} (hst : s.Beside R t) :
    Option.Rel (fun x y => x.1 = y.1 ∧ x.2.Beside R y.2) (ByteTape.execute fuel settings p s)
      (ByteTape.execute fuel settings p t) := by
  have hrun := ByteTape.InStep.execute hR.inStep fuel settings p hst (by rw [hst.machine])
  generalize ByteTape.execute fuel settings p s = x at hrun ⊢
  generalize ByteTape.execute fuel settings p t = y at hrun ⊢
  cases hrun with
  | none => exact .none
  | some hends => exact .some hends.outcome_and_state

/-- A change of the streams that all calls on them respect can be made before an execution or after
it. -/
theorem Streams.InStep.execute_eq {f : Streams → Streams}
    (hf : Streams.InStep fun st st' => st' = f st) (fuel : Nat) (settings : Settings) (p : Program)
    (m : Machine) (st : Streams) :
    ByteTape.execute fuel settings p ⟨m, f st⟩ =
      (ByteTape.execute fuel settings p ⟨m, st⟩).map fun x =>
        (x.1, ⟨x.2.machine, f x.2.streams⟩) := by
  have hbeside : State.Beside (fun st st' => st' = f st) ⟨m, st⟩ ⟨m, f st⟩ := ⟨rfl, rfl⟩
  have hrun := hf.execute fuel settings p hbeside
  generalize ByteTape.execute fuel settings p ⟨m, st⟩ = x at hrun ⊢
  generalize ByteTape.execute fuel settings p ⟨m, f st⟩ = y at hrun ⊢
  cases hrun with
  | none => rfl
  | some hends =>
    obtain ⟨houtcome, hm, hst⟩ := hends
    simp only [Option.map_some, houtcome, hm, ← hst]

end ByteTape
