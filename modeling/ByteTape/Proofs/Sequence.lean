/-
One program after another. A sequence of two programs ends as the first does if that fails, and
otherwise as the second does from where the first ended. So it is with sources: the programs of two
sources stand in a row when the sources do, in strict reading with a line break between them, and a
session that runs both is left as one that runs the two as one, but for its log.
-/
import ByteTape.Proofs.Execution.History
import ByteTape.Proofs.Execution.Reachable
import ByteTape.Proofs.Program.Spelling
import ByteTape.Proofs.Token.Lines
import ByteTape.Session

namespace ByteTape

/-! ## Executions -/

section

variable {settings : Settings} {p q : Program} {s s' : State} {o : Outcome}

theorem yields_append_iff : Yields settings (p ++ q) s o s' ↔
    (∃ e, o = .failed e ∧ Yields settings p s o s') ∨
      ∃ s₁, Yields settings p s .normal s₁ ∧ Yields settings q s₁ o s' := by
  have hsize : ∀ {modulus s₁}, Runs ⟨modulus, settings.onEof⟩ p s .normal s₁ →
      s₁.machine.cells.size = s.machine.cells.size := fun h =>
    h.invariant (P := fun t => t.machine.cells.size = s.machine.cells.size)
      (fun i t ht => (Instruction.perform_size _ i t).trans ht) rfl
  constructor
  · rintro (he | ⟨hm, hruns⟩)
    · exact .inl ⟨_, rfl, .unhandled he⟩
    · obtain ⟨s₁, hp, hq⟩ | ⟨e, ho, hp⟩ := hruns.of_append
      · exact .inr ⟨s₁, .ran hm hp, .ran (by rwa [hsize hp]) hq⟩
      · exact .inl ⟨e, ho, .ran hm hp⟩
  · rintro (⟨e, rfl, hp⟩ | ⟨s₁, hp, hq⟩)
    · cases hp with
      | unhandled he => exact .unhandled he
      | ran hm hp => exact .ran hm (hp.append_failed q)
    · cases hp with
      | ran hm hp => exact .ran hm (hp.append (hq.runs (by rwa [hsize hp])))

/-- A sequence ends as its first part does if that fails, and otherwise as its second part does from
where the first ended. -/
theorem ends_append_iff : Ends settings (p ++ q) s o s' ↔
    (∃ e, o = .failed e ∧ Ends settings p s o s') ∨
      ∃ s₁, Ends settings p s .normal s₁ ∧ Ends settings q s₁ o s' := by
  simp only [ends_iff_yields]
  exact yields_append_iff

/-- A sequence goes on for ever if its first part does, or its second part from where the first
ended. -/
theorem never_ends_append_iff : (∀ fuel, execute fuel settings (p ++ q) s = none) ↔
    (∀ fuel, execute fuel settings p s = none) ∨
      ∃ s₁, Ends settings p s .normal s₁ ∧ ∀ fuel, execute fuel settings q s₁ = none := by
  simp only [never_ends_iff]
  constructor
  · intro h
    by_cases hp : ∀ o s', ¬ Ends settings p s o s'
    · exact .inl hp
    · push Not at hp
      obtain ⟨o₁, s₁, hp⟩ := hp
      cases o₁ with
      | failed e => exact absurd (ends_append_iff.2 (.inl ⟨e, rfl, hp⟩)) (h _ _)
      | normal =>
        refine .inr ⟨s₁, hp, fun o s' hq => ?_⟩
        exact h o s' (ends_append_iff.2 (.inr ⟨s₁, hp, hq⟩))
  · rintro (h | ⟨s₁, hp, h⟩) o s' hends
    · obtain ⟨e, rfl, hp⟩ | ⟨s₁, hp, -⟩ := ends_append_iff.1 hends
      · exact h _ _ hp
      · exact h _ _ hp
    · obtain ⟨e, rfl, hp'⟩ | ⟨s₂, hp', hq⟩ := ends_append_iff.1 hends
      · obtain ⟨ho, -⟩ := hp.unique hp'
        cases ho
      · obtain ⟨-, rfl⟩ := hp.unique hp'
        exact h o s' hq

/-- What an execution records stands behind what was recorded before it. -/
theorem ends_iff_onto : Ends settings q s o s' ↔
    ∃ t, Ends settings q s.anew o t ∧ s' = t.onto s := by
  simp only [ends_iff, execute_onto _ _ _ s, Option.map_eq_some_iff]
  constructor
  · rintro ⟨fuel, ⟨o₁, t⟩, hx, hends⟩
    cases hends
    exact ⟨t, ⟨fuel, hx⟩, rfl⟩
  · rintro ⟨t, ⟨fuel, hx⟩, rfl⟩
    exact ⟨fuel, ⟨o, t⟩, hx, rfl⟩

end

/-! ## Sources -/

/-- Two sources as one. In strict reading a line break stands between them: it ends the last comment
of the first. -/
def Token.join (isStrict : Bool) (a b : List UInt8) : List UInt8 :=
  if isStrict then a ++ newline :: b else a ++ b

theorem Token.lex_join {isStrict : Bool} {a b : List UInt8} {ts us : List Token}
    (ha : lex isStrict a = .ok ts) (hb : lex isStrict b = .ok us) :
    lex isStrict (join isStrict a b) = .ok (ts ++ us) := by
  cases isStrict with
  | true => exact strict_append_newline ha hb
  | false =>
    cases ha
    cases hb
    exact congrArg Except.ok List.filterMap_append

theorem Program.load_join {isStrict : Bool} {a b : List UInt8} {p q : Program}
    (ha : (load isStrict a).result = .ok p) (hb : (load isStrict b).result = .ok q) :
    (load isStrict (Token.join isStrict a b)).result = .ok (p ++ q) := by
  obtain ⟨ts, hlexa, hts⟩ := load_eq_ok_iff.1 ha
  obtain ⟨us, hlexb, hus⟩ := load_eq_ok_iff.1 hb
  obtain ⟨hp, rfl⟩ := tokens_of_ofTokens hts
  obtain ⟨hq, rfl⟩ := tokens_of_ofTokens hus
  have hnative : (p ++ q).IsNative := (isNative_append p q).2 ⟨hp, hq⟩
  refine load_eq_ok_iff.2 ⟨p.tokens ++ q.tokens, Token.lex_join hlexa hlexb, ?_⟩
  rw [← tokens_append]
  exact ofTokens_tokens hnative

/-! ## Runs that differ in their logs -/

def Streams.withoutLog (st : Streams) : Streams := { st with log := #[] }

def State.withoutLog (s : State) : State := ⟨s.machine, s.streams.withoutLog⟩

theorem Streams.inStep_withoutLog :
    Streams.InStep fun st st' => st.withoutLog = st'.withoutLog where
  write := by
    rintro b ⟨sink, source, events, log⟩ ⟨sink', source', events', log'⟩ h
    obtain ⟨rfl, rfl, rfl, -⟩ := Streams.mk.inj h
    rw [write_eq, write_eq]
    exact ⟨rfl, rfl⟩
  flush := by
    rintro ⟨sink, source, events, log⟩ ⟨sink', source', events', log'⟩ h
    obtain ⟨rfl, rfl, rfl, -⟩ := Streams.mk.inj h
    rw [flush_eq, flush_eq]
    exact ⟨rfl, rfl⟩
  read := by
    rintro ⟨sink, source, events, log⟩ ⟨sink', source', events', log'⟩ h
    obtain ⟨rfl, rfl, rfl, -⟩ := Streams.mk.inj h
    rw [read_eq, read_eq]
    exact ⟨rfl, rfl⟩

theorem State.withoutLog_eq_iff {s t : State} : s.withoutLog = t.withoutLog ↔
    State.Beside (fun st st' => st.withoutLog = st'.withoutLog) s t := by
  constructor
  · intro h
    obtain ⟨hmachine, hstreams⟩ := State.mk.inj h
    exact ⟨hmachine, hstreams⟩
  · rintro ⟨hmachine, hstreams⟩
    exact congrArg₂ State.mk hmachine hstreams

/-- What is in the log when an execution begins shows in its log alone. -/
theorem Ends.withoutLog {settings : Settings} {p : Program} {s s' t : State} {o : Outcome}
    (h : Ends settings p s o s') (hst : s.withoutLog = t.withoutLog) :
    ∃ t', Ends settings p t o t' ∧ s'.withoutLog = t'.withoutLog := by
  have hbeside := State.withoutLog_eq_iff.1 hst
  obtain ⟨fuel, hx⟩ := ends_iff.1 h
  have hstep := InStep.execute Streams.inStep_withoutLog.inStep fuel settings p hbeside
    (congrArg (·.cells.size) hbeside.machine)
  rw [hx] at hstep
  generalize hy : execute fuel settings p t = y at hstep
  cases hstep with
  | some hpaired =>
    obtain ⟨hbeside'⟩ | ⟨rfl, hbeside'⟩ := hpaired
    · exact ⟨_, ends_iff.2 ⟨fuel, hy⟩, State.withoutLog_eq_iff.2 hbeside'⟩
    · exact ⟨_, ends_iff.2 ⟨fuel, hy⟩, State.withoutLog_eq_iff.2 hbeside'⟩

/-! ## Sessions -/

namespace Session

/-- Commands obeyed one after another, up to the first that fails, each with fuel enough. -/
inductive Obeys : Session → List Command → Outcome → Session → Prop
  | done {s : Session} : Obeys s [] .normal s
  | failed {fuel : Nat} {s s' : Session} {c : Command} {rest : List Command} {e : Error} :
      s.obey fuel c = some (.failed e, s') → Obeys s (c :: rest) (.failed e) s'
  | next {fuel : Nat} {s s₁ s' : Session} {c : Command} {rest : List Command} {o : Outcome} :
      s.obey fuel c = some (.normal, s₁) → Obeys s₁ rest o s' → Obeys s (c :: rest) o s'

def withoutLog (s : Session) : Session := { s with state := s.state.withoutLog }

variable {s s' : Session} {o : Outcome}

theorem obeys_singleton_iff {c : Command} :
    s.Obeys [c] o s' ↔ ∃ fuel, s.obey fuel c = some (o, s') := by
  constructor
  · rintro (_ | hfailed | ⟨hnext, hdone⟩)
    · exact ⟨_, hfailed⟩
    · cases hdone
      exact ⟨_, hnext⟩
  · rintro ⟨fuel, h⟩
    cases o with
    | normal => exact .next h .done
    | failed e => exact .failed h

theorem obeys_cons_iff {c : Command} {rest : List Command} :
    s.Obeys (c :: rest) o s' ↔ (∃ e, o = .failed e ∧ s.Obeys [c] o s') ∨
      ∃ s₁, s.Obeys [c] .normal s₁ ∧ s₁.Obeys rest o s' := by
  constructor
  · rintro (_ | hfailed | ⟨hnext, hrest⟩)
    · exact .inl ⟨_, rfl, .failed hfailed⟩
    · exact .inr ⟨_, .next hnext .done, hrest⟩
  · rintro (⟨e, rfl, hc⟩ | ⟨s₁, hc, hrest⟩)
    · obtain ⟨fuel, h⟩ := obeys_singleton_iff.1 hc
      exact .failed h
    · obtain ⟨fuel, h⟩ := obeys_singleton_iff.1 hc
      exact .next h hrest

section

variable {isStrict : Bool} {source : List UInt8} {request : Settings.Request} {p : Program}

/-- A source that can be read is run on the state of the session, once it is recorded that it has
been read. -/
theorem obeys_run_iff {settings : Settings} (hload : (Program.load isStrict source).result = .ok p)
    (hsettings : request.resolve = .ok settings) :
    s.Obeys [.run (.source source isStrict) request] o s' ↔
      Ends settings p (s.recordAll (Program.load isStrict source).log).state o s'.state ∧
        s'.slots = s.slots := by
  have hobey : ∀ fuel, s.obey fuel (.run (.source source isStrict) request) =
      (execute fuel settings p (s.recordAll (Program.load isStrict source).log).state).map
        fun x => (x.1, ⟨x.2, s.slots⟩) := by
    intro fuel
    simp only [obey, programOf, hload, hsettings]
    rfl
  simp only [obeys_singleton_iff, hobey, ends_iff, Option.map_eq_some_iff]
  constructor
  · rintro ⟨fuel, ⟨o₁, t⟩, hx, hends⟩
    cases hends
    exact ⟨⟨fuel, hx⟩, rfl⟩
  · rintro ⟨⟨fuel, hx⟩, hslots⟩
    exact ⟨fuel, _, hx, by rw [← hslots]⟩

/-- Under settings that are refused it is read, and not run. -/
theorem obeys_refused_iff {e : Error} (hload : (Program.load isStrict source).result = .ok p)
    (hsettings : request.resolve = .error e) :
    s.Obeys [.run (.source source isStrict) request] o s' ↔
      o = .failed e ∧ s' = s.recordAll (Program.load isStrict source).log := by
  have hobey : ∀ fuel, s.obey fuel (.run (.source source isStrict) request) =
      some (.failed e, s.recordAll (Program.load isStrict source).log) := by
    intro fuel
    simp only [obey, programOf, hload, hsettings]
  simp only [obeys_singleton_iff, hobey, exists_const, Option.some.injEq, Prod.mk.injEq, eq_comm]

end

/-! ## Two sources in a session -/

section

variable {isStrict : Bool} {a b : List UInt8} {request : Settings.Request} {p q : Program}

/-- Whatever the two runs leave, the one run leaves, but for the log. -/
theorem Obeys.join (ha : (Program.load isStrict a).result = .ok p)
    (hb : (Program.load isStrict b).result = .ok q)
    (h : s.Obeys [.run (.source a isStrict) request, .run (.source b isStrict) request] o s') :
    ∃ t, s.Obeys [.run (.source (Token.join isStrict a b) isStrict) request] o t ∧
      t.withoutLog = s'.withoutLog := by
  have hjoin := Program.load_join ha hb
  cases hsettings : request.resolve with
  | error e =>
    obtain ⟨e', rfl, hrun⟩ | ⟨s₁, hrun, -⟩ := obeys_cons_iff.1 h
    · obtain ⟨ho, rfl⟩ := (obeys_refused_iff ha hsettings).1 hrun
      exact ⟨_, (obeys_refused_iff hjoin hsettings).2 ⟨ho, rfl⟩, rfl⟩
    · obtain ⟨ho, -⟩ := (obeys_refused_iff ha hsettings).1 hrun
      cases ho
  | ok settings =>
    -- before their programs run, the two sessions differ in the records of reading the sources
    have hstart : ∀ log, s.state.withoutLog = (s.recordAll log).state.withoutLog := fun _ => rfl
    suffices hends : ∃ t, Ends settings (p ++ q) s.state o t ∧
        t.withoutLog = s'.state.withoutLog ∧ s'.slots = s.slots by
      obtain ⟨t, ht, hlog, hslots⟩ := hends
      obtain ⟨u, hu, hlog'⟩ := ht.withoutLog (hstart _)
      refine ⟨⟨u, s.slots⟩, (obeys_run_iff hjoin hsettings).2 ⟨hu, rfl⟩, ?_⟩
      simp only [withoutLog, ← hlog', hlog, hslots]
    obtain ⟨e, rfl, hrun⟩ | ⟨s₁, hrun, hrest⟩ := obeys_cons_iff.1 h
    · obtain ⟨hp, hslots⟩ := (obeys_run_iff ha hsettings).1 hrun
      obtain ⟨t, ht, hlog⟩ := hp.withoutLog (hstart _).symm
      exact ⟨t, ends_append_iff.2 (.inl ⟨e, rfl, ht⟩), hlog.symm, hslots⟩
    · obtain ⟨hp, hslots⟩ := (obeys_run_iff ha hsettings).1 hrun
      obtain ⟨hq, hslots'⟩ := (obeys_run_iff hb hsettings).1 hrest
      obtain ⟨t₁, ht₁, hlog₁⟩ := hp.withoutLog (hstart _).symm
      obtain ⟨t, ht, hlog⟩ := hq.withoutLog (t := t₁) hlog₁
      exact ⟨t, ends_append_iff.2 (.inr ⟨t₁, ht₁, ht⟩), hlog.symm, hslots'.trans hslots⟩

/-- Whatever the one run leaves, the two runs leave, but for the log. -/
theorem Obeys.of_join (ha : (Program.load isStrict a).result = .ok p)
    (hb : (Program.load isStrict b).result = .ok q)
    (h : s.Obeys [.run (.source (Token.join isStrict a b) isStrict) request] o s') :
    ∃ t, s.Obeys [.run (.source a isStrict) request, .run (.source b isStrict) request] o t ∧
      t.withoutLog = s'.withoutLog := by
  have hjoin := Program.load_join ha hb
  cases hsettings : request.resolve with
  | error e =>
    obtain ⟨rfl, rfl⟩ := (obeys_refused_iff hjoin hsettings).1 h
    exact ⟨_, obeys_cons_iff.2 (.inl ⟨e, rfl, (obeys_refused_iff ha hsettings).2 ⟨rfl, rfl⟩⟩), rfl⟩
  | ok settings =>
    obtain ⟨hends, hslots⟩ := (obeys_run_iff hjoin hsettings).1 h
    obtain ⟨t, ht, hlog⟩ := hends.withoutLog
      (t := (s.recordAll (Program.load isStrict a).log).state) rfl
    obtain ⟨e, rfl, hp⟩ | ⟨s₁, hp, hq⟩ := ends_append_iff.1 ht
    · have hrun : s.Obeys [.run (.source a isStrict) request] _ ⟨t, s.slots⟩ :=
        (obeys_run_iff ha hsettings).2 ⟨hp, rfl⟩
      refine ⟨⟨t, s.slots⟩, obeys_cons_iff.2 (.inl ⟨e, rfl, hrun⟩), ?_⟩
      simp only [withoutLog, hlog, hslots]
    · have hrun : s.Obeys [.run (.source a isStrict) request] _ ⟨s₁, s.slots⟩ :=
        (obeys_run_iff ha hsettings).2 ⟨hp, rfl⟩
      obtain ⟨u, hu, hlog'⟩ := hq.withoutLog (t := ((Session.mk s₁ s.slots).recordAll
        (Program.load isStrict b).log).state) rfl
      have hrest : Obeys ⟨s₁, s.slots⟩ [.run (.source b isStrict) request] _ ⟨u, s.slots⟩ :=
        (obeys_run_iff hb hsettings).2 ⟨hu, rfl⟩
      refine ⟨⟨u, s.slots⟩, obeys_cons_iff.2 (.inr ⟨_, hrun, hrest⟩), ?_⟩
      simp only [withoutLog, hlog, hlog', hslots]

end

end Session

/-! ## Sequential composition -/

/-- Under all settings, on every machine and all streams, a sequence of two programs ends exactly as
the first does if that fails, and otherwise exactly as the second does from the state in which the
first ended, where what the second records stands behind what was recorded; and it goes on for ever
exactly if one of the two does when its turn comes. Of two sources that can be read, the joined one is
read as the sequence of their programs; and in any session, under whatever settings are asked for,
running the one and then the other ends as running the joined one does and leaves the same machine,
sink, source and events. -/
theorem sequence_composes :
    (∀ (settings : Settings) (p q : Program) (s : State),
      (∀ o s', Ends settings (p ++ q) s o s' ↔
        (∃ e, o = .failed e ∧ Ends settings p s o s') ∨
          ∃ s₁, Ends settings p s .normal s₁ ∧ Ends settings q s₁ o s') ∧
      (∀ s₁ o s', Ends settings q s₁ o s' ↔
        ∃ t, Ends settings q s₁.anew o t ∧ s' = t.onto s₁) ∧
      ((∀ fuel, execute fuel settings (p ++ q) s = none) ↔
        (∀ fuel, execute fuel settings p s = none) ∨
          ∃ s₁, Ends settings p s .normal s₁ ∧ ∀ fuel, execute fuel settings q s₁ = none)) ∧
    (∀ (isStrict : Bool) (a b : List UInt8) (p q : Program),
      (Program.load isStrict a).result = .ok p → (Program.load isStrict b).result = .ok q →
        (Program.load isStrict (Token.join isStrict a b)).result = .ok (p ++ q) ∧
        ∀ (s : Session) (request : Settings.Request) (o : Outcome) (left : Session),
          (∃ s', s.Obeys
              [.run (.source a isStrict) request, .run (.source b isStrict) request] o s' ∧
            s'.withoutLog = left) ↔
          ∃ s', s.Obeys [.run (.source (Token.join isStrict a b) isStrict) request] o s' ∧
            s'.withoutLog = left) := by
  constructor
  · intro settings p q s
    exact ⟨fun o s' => ends_append_iff, fun s₁ o s' => ends_iff_onto, never_ends_append_iff⟩
  · intro isStrict a b p q ha hb
    refine ⟨Program.load_join ha hb, fun s request o left => ⟨?_, ?_⟩⟩
    · rintro ⟨s', h, rfl⟩
      exact h.join ha hb
    · rintro ⟨s', h, rfl⟩
      exact h.of_join ha hb

/-- Read strictly, `+//,` and `.,` have to be joined with a line break, and are `+.,` then: run one
after the other, or as one, they write the byte 1 and fail for want of input. -/
theorem sequence_composes_comment :
    let a : List UInt8 := [0x2b, 0x2f, 0x2f, 0x2c]
    let b : List UInt8 := [0x2e, 0x2c]
    let p : Program := .instr (.op .increment) .nil
    let q : Program := .instr (.op .write) (.instr (.op .read) .nil)
    let s : Session := ⟨⟨.fresh 2, {}⟩, []⟩
    (Program.load true a).result = .ok p ∧ (Program.load true b).result = .ok q ∧
    (Program.load true (Token.join true a b)).result = .ok (p ++ q) ∧
    ∃ t, s.Obeys [.run (.source a true) {}, .run (.source b true) {}]
        (.failed (.inputExhausted 0)) t ∧
      t.state.streams.sink.stored = #[1] ∧
      ∃ s', s.Obeys [.run (.source (Token.join true a b) true) {}] (.failed (.inputExhausted 0)) s' ∧
        s'.withoutLog = t.withoutLog := by
  intro a b p q s
  have ha : (Program.load true a).result = .ok p := rfl
  have hb : (Program.load true b).result = .ok q := rfl
  obtain ⟨hload, hsessions⟩ := sequence_composes.2 true a b p q ha hb
  have hfirst : s.obey 9 (.run (.source a true) {}) = some (.normal, _) := rfl
  have hruns : s.Obeys [.run (.source a true) {}, .run (.source b true) {}]
      (.failed (.inputExhausted 0)) _ := .next hfirst (@Session.Obeys.failed 9 _ _ _ _ _ rfl)
  exact ⟨ha, hb, hload, _, hruns, rfl, (hsessions s {} _ _).1 ⟨_, hruns, rfl⟩⟩

end ByteTape
