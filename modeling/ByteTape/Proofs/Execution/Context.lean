/-
Programs that are equivalent can stand for each other inside any program. Two programs are
equivalent under settings if from every machine, sink and source both come to the same end result,
or neither comes to any. What has happened before does not matter, and what is seen of an end is
enough to tell states apart that one start has led to: the events tell how often the sink was
called. So the derivations of equivalent programs agree, and with them, by induction on the context
and on the rounds of its loops, those of a context filled with the one and with the other.
-/
import ByteTape.Program.Context
import ByteTape.Proofs.Execution.Blocks
import ByteTape.Proofs.Execution.History

namespace ByteTape

open Program (Context)

variable {r : Rules} {settings : Settings} {b c p q : Program} {s s' : State} {o : Outcome}

/-! ## End results -/

/-- What is seen of the end of an execution: the outcome, the memory and the pointer, what is left
to read, what the sink has stored, the events and the log. -/
structure EndResult where
  outcome : Outcome
  cells : Array UInt8
  pointer : Int
  source : Source
  stored : Array UInt8
  events : Array Event
  log : Array LogRecord

def EndResult.of (o : Outcome) (s : State) : EndResult where
  outcome := o
  cells := s.machine.cells
  pointer := s.machine.pointer
  source := s.streams.source
  stored := s.streams.sink.stored
  events := s.streams.events
  log := s.streams.log

/-- The end results of executing a program: one, or none if it runs for ever. -/
def endResults (settings : Settings) (p : Program) (s : State) : Set EndResult :=
  {x | ∃ o s', Ends settings p s o s' ∧ x = .of o s'}

/-- From every machine, sink and source, before anything has happened, both programs have the same
end results. -/
def Equivalent (settings : Settings) (b c : Program) : Prop :=
  ∀ m sink source, endResults settings b ⟨m, { sink, source }⟩ =
    endResults settings c ⟨m, { sink, source }⟩

/-- An end result with a history in front of its own. -/
def EndResult.after (past : History) (x : EndResult) : EndResult :=
  { x with events := past.events ++ x.events, log := past.log ++ x.log }

theorem endResults_after (past : History) (settings : Settings) (p : Program) (s : State) :
    endResults settings p (s.after past) = EndResult.after past '' endResults settings p s := by
  ext x
  simp only [endResults, Set.mem_image, Set.mem_ofPred_eq, ends_iff, execute_after,
    Option.map_eq_some_iff]
  constructor
  · rintro ⟨_, _, ⟨fuel, ⟨o, s'⟩, hx, rfl, rfl⟩, rfl⟩
    exact ⟨_, ⟨o, s', ⟨fuel, hx⟩, rfl⟩, rfl⟩
  · rintro ⟨_, ⟨o, s', ⟨fuel, hx⟩, rfl⟩, rfl⟩
    exact ⟨o, s'.after past, ⟨fuel, ⟨o, s'⟩, hx, rfl⟩, rfl⟩

/-- Equivalent programs have the same end results whatever has happened before. -/
theorem Equivalent.endResults_eq (h : Equivalent settings b c) (s : State) :
    endResults settings b s = endResults settings c s := by
  obtain ⟨m, ⟨sink, source, events, log⟩⟩ := s
  have hs : (⟨m, ⟨sink, source, events, log⟩⟩ : State) =
      State.after ⟨events, log⟩ ⟨m, { sink, source }⟩ := by
    simp only [State.after, Streams.after, Array.append_empty]
  rw [hs, endResults_after, endResults_after, h]

theorem equivalent_of_runs (h : ∀ r s o s', Runs r b s o s' ↔ Runs r c s o s') :
    Equivalent settings b c := by
  have hyields : ∀ s o s', Yields settings b s o s' ↔ Yields settings c s o s' := by
    intro s o s'
    constructor
    · exact fun hb => hb.imp fun _ => (h _ _ _ _).1
    · exact fun hc => hc.imp fun _ => (h _ _ _ _).2
  intro m sink source
  ext x
  simp only [endResults, Set.mem_ofPred_eq, ends_iff_yields, hyields]

/-! ## Derivations -/

namespace Runs

theorem calls (h : Runs r p s o s') : ∃ calls, s.streams.Calls calls s'.streams := by
  obtain ⟨done, hdone⟩ := h.reaches
  obtain ⟨calls, hcalls, -⟩ := hdone.concludes
  exact ⟨calls, hcalls⟩

/-- Of two programs begun in one state, what is seen of their ends tells whether the ends are the
same. -/
theorem end_unique {o₁ : Outcome} {s₁ : State} (hb : Runs r b s o s') (hc : Runs r c s o₁ s₁)
    (h : EndResult.of o s' = .of o₁ s₁) : o = o₁ ∧ s' = s₁ := by
  obtain ⟨calls, hcalls⟩ := hb.calls
  obtain ⟨calls₁, hcalls₁⟩ := hc.calls
  obtain ⟨⟨cells, pointer⟩, ⟨sink, source, events, log⟩⟩ := s'
  obtain ⟨⟨cells₁, pointer₁⟩, ⟨sink₁, source₁, events₁, log₁⟩⟩ := s₁
  simp only [EndResult.of, EndResult.mk.injEq] at h
  obtain ⟨rfl, rfl, rfl, rfl, hstored, rfl, rfl⟩ := h
  obtain rfl : sink = sink₁ := hcalls.sink_unique hcalls₁ rfl hstored
  exact ⟨rfl, rfl⟩

/-- If, from states of an invariant, whatever is derived of one program is derived of another, then
so it is of a context filled with them. -/
theorem fill {P : State → Prop} (hP : ∀ (i : Instruction) s, P s → P (i.perform r s).2)
    (h : ∀ {s o s'}, P s → Runs r b s o s' → Runs r c s o s') (C : Context) (hs : P s)
    (hb : Runs r (C.fill b) s o s') : Runs r (C.fill c) s o s' := by
  induction C generalizing s s' o with
  | nil => exact hb
  | hole rest ih =>
    obtain ⟨s₁, hhole, hrest⟩ | ⟨e, rfl, hhole⟩ := hb.of_append
    · exact (h hs hhole).append (ih (hhole.invariant hP hs) hrest)
    · exact (h hs hhole).append_failed _
  | instr i rest ih =>
    cases hb with
    | instr hi hrest =>
      have hkept := hP i s hs
      rw [hi] at hkept
      exact .instr hi (ih hkept hrest)
    | instrFailed hi => exact .instrFailed hi
  | loop body rest ihBody ihRest =>
    -- the holes of the body are come to again in each round, so by induction on the derivation
    generalize hl : (Context.loop body rest).fill b = l at hb
    induction hb with
    | nil | instr | instrFailed => cases hl
    | guardFailed hcell => exact .guardFailed hcell
    | loopDone hcell hrest _ =>
      cases hl
      exact .loopDone hcell (ihRest hs hrest)
    | bodyFailed hcell hne hbody _ =>
      cases hl
      exact .bodyFailed hcell hne (ihBody hs hbody)
    | loopAgain hcell hne hbody _ _ ihAgain =>
      cases hl
      exact .loopAgain hcell hne (ihBody hs hbody) (ihAgain (hbody.invariant hP hs) rfl)

/-- A loop that is left normally leaves a zero in the current cell. -/
theorem current_of_loop {body : Program} (h : Runs r (.loop body .nil) s .normal s') :
    s'.machine.current = .ok 0 := by
  generalize hl : Program.loop body .nil = l at h
  generalize ho : Outcome.normal = o at h
  induction h with
  | nil | instr | instrFailed => cases hl
  | guardFailed | bodyFailed => cases ho
  | loopDone hcell hrest _ =>
    cases hl
    cases hrest
    exact hcell
  | loopAgain _ _ _ _ _ ih => exact ih hl ho

/-- So a loop right after another is always skipped. -/
theorem loop_loop_iff {body other : Program} :
    Runs r (.loop body (.loop other .nil)) s o s' ↔ Runs r (.loop body .nil) s o s' := by
  have happend : Program.loop body (.loop other .nil) = .loop body .nil ++ .loop other .nil := rfl
  rw [happend]
  constructor
  · intro h
    obtain ⟨s₁, hbody, hother⟩ | ⟨e, rfl, hbody⟩ := h.of_append
    · have hcell := hbody.current_of_loop
      cases hother with
      | loopDone _ hnil =>
        cases hnil
        exact hbody
      | guardFailed he => rw [hcell] at he; cases he
      | bodyFailed he hne | loopAgain he hne =>
        rw [hcell] at he
        cases he
        exact absurd rfl hne
    · exact hbody
  · intro h
    cases o with
    | normal => exact h.append (.loopDone h.current_of_loop .nil)
    | failed e => exact h.append_failed _

end Runs

/-! ## Equivalent programs -/

namespace Equivalent

theorem symm (h : Equivalent settings b c) : Equivalent settings c b := fun m sink source =>
  (h m sink source).symm

/-- What is derived of a program is derived of an equivalent one. -/
theorem runs (h : Equivalent settings b c) {modulus : Nat}
    (hm : settings.wrap.modulus s.machine.cells.size = .ok modulus)
    (hb : Runs ⟨modulus, settings.onEof⟩ b s o s') : Runs ⟨modulus, settings.onEof⟩ c s o s' := by
  have hends : EndResult.of o s' ∈ endResults settings c s :=
    h.endResults_eq s ▸ ⟨o, s', ends_iff_yields.2 (.ran hm hb), rfl⟩
  obtain ⟨o₁, s₁, hends, hresult⟩ := hends
  have hc := (ends_iff_yields.1 hends).runs hm
  obtain ⟨rfl, rfl⟩ := hb.end_unique hc hresult
  exact hc

/-- A context filled with equivalent programs yields the same. -/
theorem yields_fill (h : Equivalent settings b c) (C : Context)
    (hb : Yields settings (C.fill b) s o s') : Yields settings (C.fill c) s o s' := by
  refine hb.imp fun hm hruns => ?_
  -- the modulus may depend on the length of the tape, which no instruction changes
  refine hruns.fill (P := fun t => t.machine.cells.size = s.machine.cells.size)
    (fun i t ht => (Instruction.perform_size _ i t).trans ht) (fun ht => h.runs ?_) C rfl
  rwa [ht]

theorem ends_fill_iff (h : Equivalent settings b c) (C : Context) :
    Ends settings (C.fill b) s o s' ↔ Ends settings (C.fill c) s o s' := by
  simp only [ends_iff_yields]
  exact ⟨h.yields_fill C, h.symm.yields_fill C⟩

end Equivalent

/-- If two programs are equivalent under some settings, then so are, under them, all programs that
differ only in having the one or the other in the same places, at whatever depth of loops: from
every machine and streams both have the same end results, and the one runs for ever exactly when the
other does. -/
theorem equivalent_in_context (settings : Settings) (b c : Program) (h : Equivalent settings b c)
    (C : Context) (s : State) :
    endResults settings (C.fill b) s = endResults settings (C.fill c) s ∧
      ((∀ fuel, execute fuel settings (C.fill b) s = none) ↔
        ∀ fuel, execute fuel settings (C.fill c) s = none) := by
  constructor
  · ext x
    simp only [endResults, Set.mem_ofPred_eq, h.ends_fill_iff C]
  · simp only [never_ends_iff, h.ends_fill_iff C]

/-- A loop after a loop is never entered, so `[,][.]` and `[,]` are equivalent; in the context
`+[·+]` both are left after the second byte, and entered again, where there is nothing left to
read. -/
theorem equivalent_in_context_left_midway :
    let b : Program := .loop (.instr (.op .read) .nil) (.loop (.instr (.op .write) .nil) .nil)
    let c : Program := .loop (.instr (.op .read) .nil) .nil
    let C : Context := .instr (.op .increment)
      (.loop (.hole (.instr (.op .increment) .nil)) .nil)
    let s : State := ⟨.fresh 2, { source := [.data [2], .data [0]] }⟩
    Equivalent {} b c ∧ endResults {} (C.fill b) s = endResults {} (C.fill c) s ∧
      ∃ x ∈ endResults {} (C.fill c) s, x.outcome = .failed (.inputExhausted 0) ∧
        x.cells = #[1, 0] := by
  intro b c C s
  have hequiv : Equivalent {} b c := equivalent_of_runs fun _ _ _ _ => Runs.loop_loop_iff
  refine ⟨hequiv, (equivalent_in_context {} b c hequiv C s).1, ?_⟩
  exact ⟨_, ⟨_, _, ends_iff.2 ⟨20, rfl⟩, rfl⟩, rfl, rfl⟩

end ByteTape
