/-
What strict reading changes. It refuses sources, and it leaves out symbols inside comments, and that
is all: a source that can be read strictly and has no symbol inside a comment is interpreted alike in
both readings, step by step, but for the record that says how it was read. A source that strict
reading refuses is never run.
-/
import ByteTape.Proofs.Execution.History
import ByteTape.Proofs.Execution.Outcomes
import ByteTape.Proofs.Program.Loading
import ByteTape.Proofs.Token.Lines

namespace ByteTape

/-! ## Loading -/

namespace Program

/-- A source with a byte that is refused leaves no record. -/
theorem load_log_of_unexpectedByte {isStrict : Bool} {source : List UInt8} {b : UInt8}
    {offset : Nat} (h : (load isStrict source).result = .error (.unexpectedByte b offset)) :
    (load isStrict source).log = [] := by
  rw [load_result] at h
  cases hlex : Token.lex isStrict source with
  | error e => rw [load_of_lex_error hlex]
  | ok ts =>
    -- arranging tokens never fails so
    rw [hlex] at h
    have hverdict := verdict ts
    rw [show ofTokens ts = .error (.unexpectedByte b offset) from h] at hverdict
    cases hverdict

end Program

/-! ## One source in two readings -/

/-- Two ends of interpreting a source of so many tokens and bytes from the streams `st`, the first
after reading it strictly: they differ in one record, which tells of the reading. -/
structure ReadAlike (st : Streams) (tokens bytes : Nat) (x y : Outcome × Streams) : Prop where
  outcome : x.1 = y.1
  sink : x.2.sink = y.2.sink
  source : x.2.source = y.2.source
  events : x.2.events = y.2.events
  log : ∃ later, x.2.log = st.log.push (.lexed tokens bytes true) ++ later ∧
    y.2.log = st.log.push (.lexed tokens bytes false) ++ later

theorem LogRecord.line_lexed_strict (tokens bytes : Nat) :
    (lexed tokens bytes true).line = (lexed tokens bytes false).line ++ " (strict)" := by
  have hmessage : (lexed tokens bytes false).message ++ " (strict)" =
      (lexed tokens bytes true).message := by
    show (_ ++ "") ++ " (strict)" = _ ++ " (strict)"
    rw [String.append_empty]
  simp only [line, ← hmessage, String.append_assoc]
  rfl

theorem conclude_after (past : History) (o : Outcome) (st : Streams) :
    conclude o (st.after past) = ((conclude o st).1, (conclude o st).2.after past) := by
  unfold conclude
  rw [Streams.after_flush]
  rcases st.flush with ⟨_ | e, st'⟩ <;> rfl

/-- What interpreting a source comes to once it has been cut into tokens, with an empty log. -/
def interpretTokens (fuel : Nat) (settings : Settings) (ts : List Token) (st : Streams) :
    Option (Outcome × Streams) :=
  let arranged := Program.loadTokens ts
  let st := { st with log := arranged.log.toArray }
  match arranged.result with
  | .error e => some (.failed e, st)
  | .ok p => (execute fuel settings p ⟨.fresh Machine.defaultSize, st⟩).map fun x =>
      conclude x.1 x.2.streams

/-- The log of earlier and the record of the reading stand in front of the rest. -/
theorem interpret_of_lex {settings : Settings} {source : List UInt8} {ts : List Token}
    (h : Token.lex settings.strict source = .ok ts) (fuel : Nat) (st : Streams) :
    interpret fuel settings source st = (interpretTokens fuel settings ts st).map fun x =>
      (x.1, x.2.after ⟨#[], st.log.push (.lexed ts.length source.length settings.strict)⟩) := by
  have hload := Program.load_of_lex h
  generalize hpast : (⟨#[], st.log.push (.lexed ts.length source.length settings.strict)⟩ : History)
    = past
  have hrecorded : st.recordLoad settings source =
      { st with log := (Program.loadTokens ts).log.toArray }.after past := by
    rw [Streams.recordLoad, Streams.after, hload, ← hpast]
    simp [← Array.toList_inj]
  cases hresult : (Program.loadTokens ts).result with
  | error e =>
    simp only [interpretTokens, hresult]
    rw [interpret_of_load_error (by rw [hload, hresult]), hrecorded]
    rfl
  | ok p =>
    simp only [interpretTokens, hresult]
    have hafter := execute_after past fuel settings p
      ⟨.fresh Machine.defaultSize, { st with log := (Program.loadTokens ts).log.toArray }⟩
    rw [interpret_of_load_ok (by rw [hload, hresult]), hrecorded, ← State.after_mk, hafter,
      Option.map_map, Option.map_map]
    congr 1
    funext x
    exact conclude_after _ _ _

theorem interpret_readAlike {source : List UInt8} {ts : List Token}
    (hstrict : Token.strict source = .ok ts) (hpermissive : Token.permissive source = ts)
    (fuel : Nat) (settings : Settings) (st : Streams) :
    Option.Rel (ReadAlike st ts.length source.length)
      (interpret fuel { settings with strict := true } source st)
      (interpret fuel { settings with strict := false } source st) := by
  have htrue : Token.lex true source = .ok ts := hstrict
  have hfalse : Token.lex false source = .ok ts := congrArg Except.ok hpermissive
  -- a run does not look at how its source was read
  have hsame : interpretTokens fuel { settings with strict := true } ts st =
      interpretTokens fuel { settings with strict := false } ts st := rfl
  have hx : interpret fuel { settings with strict := true } source st = _ :=
    interpret_of_lex htrue fuel st
  have hy : interpret fuel { settings with strict := false } source st = _ :=
    interpret_of_lex hfalse fuel st
  rw [hx, hy, hsame]
  cases interpretTokens fuel { settings with strict := false } ts st with
  | none => exact .none
  | some x => exact .some ⟨rfl, rfl, rfl, rfl, x.2.log, rfl, rfl⟩

/-! ## What strict reading changes -/

/-- Of a source that can be read strictly, the strict tokens are some of the permissive ones, in
order, and they are all of them exactly if no symbol stands inside a comment. Then interpreting it
comes to the same in both readings, whatever the settings and the streams, or goes on for ever in
both, but for one record, which says that the reading was strict. And where a source is refused for
a byte in it, the streams are left as they were. -/
theorem strict_reading_only_refuses :
    (∀ (source : List UInt8) (ts : List Token), Token.strict source = .ok ts →
      ts.Sublist (Token.permissive source) ∧
      (ts = Token.permissive source ↔ ∀ b ∈ Token.commented source, Token.ofByte? b = none) ∧
      ((∀ b ∈ Token.commented source, Token.ofByte? b = none) →
        ∀ (fuel : Nat) (settings : Settings) (st : Streams),
          Option.Rel (ReadAlike st ts.length source.length)
            (interpret fuel { settings with strict := true } source st)
            (interpret fuel { settings with strict := false } source st))) ∧
    (∀ tokens bytes : Nat, (LogRecord.lexed tokens bytes true).line =
      (LogRecord.lexed tokens bytes false).line ++ " (strict)") ∧
    (∀ (fuel : Nat) (settings : Settings) (source : List UInt8) (st st' : Streams) (b : UInt8)
      (offset : Nat), interpret fuel { settings with strict := true } source st =
        some (.failed (.unexpectedByte b offset), st') → st' = st) := by
  refine ⟨fun source ts h => ?_, fun tokens bytes => ?_, fun fuel settings source st st' b offset h => ?_⟩
  · obtain ⟨-, rfl⟩ := Token.strict_eq_ok_iff.1 h
    have hiff := Token.tokens_uncommented_eq_iff source
    refine ⟨(Token.uncommented_sublist source).filterMap _, hiff, fun hnone => ?_⟩
    exact interpret_readAlike h (hiff.2 hnone).symm
  · exact LogRecord.line_lexed_strict tokens bytes
  · obtain ⟨hload, rfl⟩ | ⟨p, s₁, hx⟩ | ⟨f, hf⟩ := interpret_failed h
    · rw [Streams.recordLoad, Program.load_log_of_unexpectedByte hload]
      simp
    · exact absurd rfl (execute_not_isSyntax hx)
    · cases hf

/-- A source with a letter in its comment is interpreted alike in both readings; one with a minus
sign in its comment has another token when it is read permissively; and `+x` is refused for its
second byte. -/
theorem strict_reading_only_refuses_letters :
    let quiet : List UInt8 := [0x2c, 0x2f, 0x2f, 0x61, 0x0a, 0x2e]
    let loud : List UInt8 := [0x2b, 0x2f, 0x2f, 0x2d]
    let ts : List Token := [.op .read, .op .write]
    (Token.strict quiet = .ok ts ∧ (∀ b ∈ Token.commented quiet, Token.ofByte? b = none) ∧
      Option.Rel (ReadAlike {} 2 6) (interpret 1 { strict := true } quiet {})
        (interpret 1 { strict := false } quiet {}) ∧
      (interpret 1 { strict := true } quiet {}).map (·.1) =
        some (.failed (.inputExhausted 0))) ∧
    (Token.strict loud = .ok [.op .increment] ∧ [.op .increment] ≠ Token.permissive loud) ∧
    ∃ st', interpret 0 { strict := true } [0x2b, 0x78] {} =
      some (.failed (.unexpectedByte 0x78 1), st') ∧ st' = {} := by
  intro quiet loud ts
  obtain ⟨hsources, -, hrefused⟩ := strict_reading_only_refuses
  have hquiet : Token.strict quiet = .ok ts := by decide
  have hloud : Token.strict loud = .ok [.op .increment] := by decide
  have hcommented : Token.commented quiet = [0x2f, 0x2f, 0x61] := by decide
  have hnone : ∀ b ∈ Token.commented quiet, Token.ofByte? b = none := by
    rw [hcommented]
    simp only [List.forall_mem_cons, List.not_mem_nil, IsEmpty.forall_iff, implies_true]
    decide
  have hsymbol : ¬ ∀ b ∈ Token.commented loud, Token.ofByte? b = none := fun h =>
    absurd (h 0x2d (by decide)) (by decide)
  refine ⟨⟨hquiet, hnone, (hsources quiet ts hquiet).2.2 hnone 1 {} {}, rfl⟩, ⟨hloud, ?_⟩, ?_⟩
  · exact mt (hsources loud _ hloud).2.1.1 hsymbol
  · exact ⟨_, rfl, hrefused 0 {} [0x2b, 0x78] {} _ 0x78 1 rfl⟩

end ByteTape
