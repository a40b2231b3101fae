/-
Spelling and reading are inverse. The tokens of a program are arranged into that program again,
whatever stands around them, and a sequence of tokens that can be arranged spells the program that
comes out. When it cannot, `Verdict` says what it looks like: a program and then a loop end, or a
program and then a loop begin after which nothing more is closed than opened.

The second half is carried by `Reading`: at every moment, the sequences on the stack and the one
being built, with a loop begin between each two, spell exactly the tokens read so far, and each
open loop knows how many tokens stand before it.
-/
import ByteTape.Program.Loading
import ByteTape.Proofs.Program.Balance

namespace ByteTape

namespace Program

/-! ## Backwards and forwards -/

@[simp] theorem reverse_nil : nil.reverse = nil := rfl

@[simp] theorem reverse_instr (i : Instruction) (p : Program) :
    (instr i p).reverse = p.reverse ++ instr i nil :=
  reverseOnto_eq p _

@[simp] theorem reverse_loop (body p : Program) :
    (loop body p).reverse = p.reverse ++ loop body nil :=
  reverseOnto_eq p _

theorem reverse_append (p q : Program) : (p ++ q).reverse = q.reverse ++ p.reverse := by
  induction p with
  | nil => simp
  | instr i rest ih => simp only [instr_append, reverse_instr, ih, append_assoc]
  | loop body rest _ ih => simp only [loop_append, reverse_loop, ih, append_assoc]

@[simp] theorem reverse_reverse (p : Program) : p.reverse.reverse = p := by
  induction p with
  | nil => rfl
  | instr i rest ih => simp [reverse_append, ih]
  | loop body rest _ ih => simp [reverse_append, ih]

@[simp] theorem isNative_append (p q : Program) : (p ++ q).IsNative ↔ p.IsNative ∧ q.IsNative := by
  induction p with
  | nil => simp [IsNative]
  | instr i rest ih => simp only [instr_append, IsNative, ih, and_assoc]
  | loop body rest _ ih => simp only [loop_append, IsNative, ih, and_assoc]

@[simp] theorem isNative_reverse (p : Program) : p.reverse.IsNative ↔ p.IsNative := by
  induction p with
  | nil => rfl
  | instr i rest ih => simp [IsNative, ih, and_comm]
  | loop body rest _ ih => simp [IsNative, ih, and_comm]

/-! ## From programs to tokens and back -/

/-- The tokens of a program, in the midst of others, put the program after what has been built. -/
theorem arrange_tokens {p : Program} (hp : p.IsNative) (offset : Nat) (stack : List OpenLoop)
    (done : Program) (rest : List Token) :
    arrange offset stack done (p.tokens ++ rest) =
      arrange (offset + p.tokens.length) stack (p.reverseOnto done) rest := by
  induction p generalizing offset stack done rest with
  | nil => rfl
  | instr i p ih =>
    cases i with
    | op o =>
      simp only [tokens, Instruction.tokens, List.cons_append, List.nil_append, arrange,
        List.length_cons, reverseOnto]
      rw [ih hp.2, Nat.add_right_comm, Nat.add_assoc]
    | foreign name => exact hp.1.elim
  | loop body p ihb ih =>
    have hbody : (body.reverseOnto nil).reverse = body := reverse_reverse body
    simp only [tokens, List.cons_append, List.append_assoc, arrange]
    rw [ihb hp.1]
    simp only [arrange, hbody]
    rw [ih hp.2]
    simp only [List.length_cons, List.length_append, reverseOnto]
    congr 1
    omega

theorem ofTokens_tokens {p : Program} (hp : p.IsNative) : ofTokens p.tokens = .ok p := by
  have := arrange_tokens hp 0 [] nil []
  rw [List.append_nil] at this
  rw [ofTokens, this]
  show Except.ok p.reverse.reverse = _
  rw [reverse_reverse]

/-! ## From tokens to programs and back -/

/-- What has been read when these loops are open and `done` stands in the innermost sequence. -/
def spelled : List OpenLoop → Program → List Token
  | [], done => done.reverse.tokens
  | o :: outer, done => spelled outer o.before ++ .loopBegin :: done.reverse.tokens

/-- Each open loop stands at its offset, after operations of the language alone. -/
def Placed : List OpenLoop → Prop
  | [] => True
  | o :: outer =>
    o.offset = (spelled outer o.before).length ∧ o.before.IsNative ∧ Placed outer

/-- Where the arrangement stands after the tokens `read`. -/
structure Reading (read : List Token) (offset : Nat) (stack : List OpenLoop) (done : Program) :
    Prop where
  spells : spelled stack done = read
  counts : read.length = offset
  placed : Placed stack
  native : done.IsNative

namespace Reading

theorem start : Reading [] 0 [] nil := ⟨rfl, rfl, trivial, trivial⟩

variable {read : List Token} {offset : Nat} {stack : List OpenLoop} {done : Program}

theorem op (h : Reading read offset stack done) (o : Op) :
    Reading (read ++ [.op o]) (offset + 1) stack (.instr (.op o) done) := by
  refine ⟨?_, by simp [h.counts], h.placed, ⟨trivial, h.native⟩⟩
  cases stack <;>
    simp [spelled, ← h.spells, tokens_append, tokens, Instruction.tokens]

theorem loopBegin (h : Reading read offset stack done) :
    Reading (read ++ [.loopBegin]) (offset + 1) (⟨offset, done⟩ :: stack) nil := by
  refine ⟨?_, by simp [h.counts], ⟨?_, h.native, h.placed⟩, trivial⟩
  · simp [spelled, h.spells, tokens]
  · rw [h.spells, h.counts]

theorem loopEnd {o : OpenLoop} {outer : List OpenLoop} (h : Reading read offset (o :: outer) done) :
    Reading (read ++ [.loopEnd]) (offset + 1) outer (.loop done.reverse o.before) := by
  obtain ⟨-, hbefore, hplaced⟩ := h.placed
  refine ⟨?_, by simp [h.counts], hplaced, ⟨(isNative_reverse done).2 h.native, hbefore⟩⟩
  rw [← h.spells]
  cases outer <;> simp [spelled, tokens_append, tokens]

end Reading

/-- Under an open stack stands a program, then the outermost loop begin, and then nothing that
would close it. -/
theorem spelled_of_getLast? {stack : List OpenLoop} {o : OpenLoop} (done : Program)
    (hlast : stack.getLast? = some o) (hplaced : Placed stack) :
    ∃ rest, spelled stack done = o.before.reverse.tokens ++ .loopBegin :: rest ∧
      o.offset = o.before.reverse.tokens.length ∧ o.before.IsNative ∧ NeverBelow rest := by
  induction stack generalizing done with
  | nil => cases hlast
  | cons i outer ih =>
    cases outer with
    | nil =>
      cases hlast
      exact ⟨done.reverse.tokens, rfl, hplaced.1, hplaced.2.1, .tokens _⟩
    | cons j outer =>
      rw [List.getLast?_cons_cons] at hlast
      obtain ⟨rest, hspelled, hoffset, hnative, hrest⟩ := ih i.before hlast hplaced.2.2
      refine ⟨rest ++ .loopBegin :: done.reverse.tokens, ?_, hoffset, hnative, ?_⟩
      · rw [spelled, hspelled, List.append_assoc, List.cons_append]
      · exact hrest.append (NeverBelow.tokens _).loopBegin

/-- What a sequence of tokens looks like, by what its arrangement comes to. -/
inductive Verdict (ts : List Token) : Except Error Program → Prop
  | whole {p : Program} : p.IsNative → ts = p.tokens → Verdict ts (.ok p)
  | strayEnd {p : Program} {rest : List Token} :
      p.IsNative → ts = p.tokens ++ .loopEnd :: rest →
        Verdict ts (.error (.unmatchedEnd p.tokens.length))
  | strayBegin {p : Program} {rest : List Token} :
      p.IsNative → ts = p.tokens ++ .loopBegin :: rest → NeverBelow rest →
        Verdict ts (.error (.unmatchedBegin p.tokens.length))

theorem Reading.verdict {read ts : List Token} {offset : Nat} {stack : List OpenLoop}
    {done : Program} (h : Reading read offset stack done) :
    Verdict (read ++ ts) (arrange offset stack done ts) := by
  induction ts generalizing read offset stack done with
  | nil =>
    rw [List.append_nil, arrange]
    split
    · rename_i o hlast
      obtain ⟨rest, hspelled, hoffset, hnative, hrest⟩ := spelled_of_getLast? done hlast h.placed
      rw [hoffset]
      exact .strayBegin ((isNative_reverse _).2 hnative) (h.spells.symm.trans hspelled) hrest
    · rename_i hlast
      rw [List.getLast?_eq_none_iff] at hlast
      subst hlast
      exact .whole ((isNative_reverse _).2 h.native) h.spells.symm
  | cons t ts ih =>
    rw [List.append_cons]
    cases t with
    | op o => exact ih (h.op o)
    | loopBegin => exact ih h.loopBegin
    | loopEnd =>
      cases stack with
      | nil =>
        -- with no open loop, what has been read is the sequence being built
        have hread : done.reverse.tokens = read := h.spells
        rw [arrange, ← h.counts, ← hread, ← List.append_cons]
        exact .strayEnd ((isNative_reverse _).2 h.native) rfl
      | cons o outer => exact ih h.loopEnd

/-- Every sequence of tokens looks the way its arrangement says. -/
theorem verdict (ts : List Token) : Verdict ts (ofTokens ts) := Reading.start.verdict

theorem tokens_of_ofTokens {ts : List Token} {p : Program} (h : ofTokens ts = .ok p) :
    p.IsNative ∧ p.tokens = ts := by
  have := verdict ts
  rw [h] at this
  cases this with
  | whole hp hts => exact ⟨hp, hts.symm⟩

end Program

/-! ## Sources -/

namespace Token

theorem scan_bytes (ts : List Token) (offset : Nat) (found : List Token) :
    scan offset false found (ts.map byte) = .ok (found.reverse ++ ts) := by
  induction ts generalizing offset found with
  | nil => simp [scan]
  | cons t ts ih => simp [scan, ih]

/-- The bytes of tokens are cut into these tokens, in either reading. -/
theorem lex_bytes (isStrict : Bool) (ts : List Token) : lex isStrict (ts.map byte) = .ok ts := by
  cases isStrict with
  | false => simp [lex, permissive, List.filterMap_map]
  | true => exact scan_bytes ts 0 []

end Token

namespace Program

theorem load_eq_ok_iff {isStrict : Bool} {source : List UInt8} {p : Program} :
    (load isStrict source).result = .ok p ↔
      ∃ ts, Token.lex isStrict source = .ok ts ∧ ofTokens ts = .ok p := by
  unfold load Token.load loadTokens
  cases Token.lex isStrict source with
  | error e => simp
  | ok ts =>
    simp only [Except.ok.injEq, exists_eq_left']
    cases ofTokens ts <;> simp

/-- A program of operations is what its tokens are arranged into and what its bytes are read as,
strictly or not; tokens that can be arranged are those of the program they are arranged into; so of
two sources that can be read, each in its own way, the programs are the same exactly when the
tokens are. -/
theorem reading_inverts_spelling :
    (∀ p : Program, p.IsNative →
      ofTokens p.tokens = .ok p ∧ ∀ isStrict, (load isStrict p.bytes).result = .ok p) ∧
    (∀ (ts : List Token) (p : Program), ofTokens ts = .ok p → p.IsNative ∧ p.tokens = ts) ∧
    (∀ (strictA strictB : Bool) (a b : List UInt8) (ts us : List Token) (p q : Program),
      Token.lex strictA a = .ok ts → Token.lex strictB b = .ok us →
      (load strictA a).result = .ok p → (load strictB b).result = .ok q → (p = q ↔ ts = us)) := by
  refine ⟨fun p hp => ⟨ofTokens_tokens hp, fun isStrict => ?_⟩, fun ts p h => tokens_of_ofTokens h,
    fun strictA strictB a b ts us p q ha hb hp hq => ?_⟩
  · exact load_eq_ok_iff.2 ⟨p.tokens, Token.lex_bytes isStrict _, ofTokens_tokens hp⟩
  · obtain ⟨ts', hts, hp⟩ := load_eq_ok_iff.1 hp
    obtain ⟨us', hus, hq⟩ := load_eq_ok_iff.1 hq
    rw [ha] at hts; cases hts
    rw [hb] at hus; cases hus
    constructor
    · rintro rfl
      rw [← (tokens_of_ofTokens hp).2, ← (tokens_of_ofTokens hq).2]
    · rintro rfl
      rw [hp] at hq; cases hq; rfl

/-- The program `,[[-]]` is read back from its tokens and bytes, and the tokens `[[-]]` spell what
they are arranged into; the sources `[.]x` and, read strictly, `[,]` are different programs. -/
theorem reading_inverts_spelling_nested :
    (∃ p : Program, p.depth = 2 ∧ p.IsNative ∧ ofTokens p.tokens = .ok p ∧
      (load true p.bytes).result = .ok p) ∧
    (∃ p, ofTokens [.loopBegin, .loopBegin, .op .decrement, .loopEnd, .loopEnd] = .ok p ∧
      p.tokens = [.loopBegin, .loopBegin, .op .decrement, .loopEnd, .loopEnd]) ∧
    ∃ p q, (load false [0x5b, 0x2e, 0x5d, 0x78]).result = .ok p ∧
      (load true [0x5b, 0x2c, 0x5d]).result = .ok q ∧ p ≠ q := by
  refine ⟨?_, ⟨_, rfl, ?_⟩, ⟨_, _, rfl, rfl, fun h => ?_⟩⟩
  · have hp : IsNative (.instr (.op .read) (.loop (.loop (.instr (.op .decrement) .nil) .nil) .nil)) :=
      ⟨trivial, ⟨⟨trivial, trivial⟩, trivial⟩, trivial⟩
    obtain ⟨htokens, hbytes⟩ := reading_inverts_spelling.1 _ hp
    exact ⟨_, rfl, hp, htokens, hbytes true⟩
  · exact (reading_inverts_spelling.2.1 _ _ rfl).2
  · have := (reading_inverts_spelling.2.2 false true [0x5b, 0x2e, 0x5d, 0x78] [0x5b, 0x2c, 0x5d]
      [.loopBegin, .op .write, .loopEnd] [.loopBegin, .op .read, .loopEnd] _ _ rfl rfl rfl rfl).1 h
    cases this

end Program

end ByteTape
