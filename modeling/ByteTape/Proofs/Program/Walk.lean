/-
The walk of a program, told from the tokens that spell it. A loop end lists nothing, and every other
token lists one entry, at the level at which it stands: so many loops are open there. Nothing is lost
by leaving out the loop ends, because each of them shows in a level that does not rise where it could,
or falls: a walk belongs to one program, and so to one sequence of tokens.
-/
import ByteTape.Proofs.Program.Spelling

namespace ByteTape

/-- What a token lists in a walk: a loop begin its loop, a loop end nothing, and any other token the
instruction it stands for. -/
def Token.node? : Token → Option Program.Node
  | .loopBegin => some .loop
  | t => t.instruction?.map .instr

namespace Program

/-! ## What tokens list -/

/-- The tokens without the loop ends, each as what it lists, at the level of the tokens before it. -/
def outline (ts : List Token) : List (Int × Node) :=
  ts.zipIdx.filterMap fun c => c.1.node?.map fun n => (level ts c.2, n)

/-- What tokens list behind others that have left `d` loops open. -/
def outlineFrom (d : Int) (ts : List Token) : List (Int × Node) :=
  ts.zipIdx.filterMap fun c => c.1.node?.map fun n => (d + level ts c.2, n)

theorem outlineFrom_zero (ts : List Token) : outlineFrom 0 ts = outline ts := by
  simp only [outlineFrom, outline, zero_add]

theorem outlineFrom_cons (d : Int) (t : Token) (ts : List Token) :
    outlineFrom d (t :: ts) =
      (t.node?.map fun n => (d, n)).toList ++ outlineFrom (d + balance [t]) ts := by
  have hrest : (ts.zipIdx 1).filterMap (fun c => c.1.node?.map fun n =>
      (d + level (t :: ts) c.2, n)) = outlineFrom (d + balance [t]) ts := by
    rw [List.zipIdx_succ, List.filterMap_map]
    simp only [outlineFrom, Function.comp_def, level_cons_succ, add_assoc]
  rw [outlineFrom, List.zipIdx_cons, List.filterMap_cons, hrest]
  cases t.node? <;> simp

theorem outlineFrom_append (d : Int) (ts us : List Token) :
    outlineFrom d (ts ++ us) = outlineFrom d ts ++ outlineFrom (d + balance ts) us := by
  induction ts generalizing d with
  | nil => simp [outlineFrom]
  | cons t ts ih =>
    rw [List.cons_append, outlineFrom_cons, outlineFrom_cons, ih, balance_cons t ts,
      List.append_assoc, add_assoc]

/-! ## From programs to what their tokens list -/

/-- An entry of a walk, its depth as an integer. -/
def leveled (e : Nat × Node) : Int × Node := (e.1, e.2)

theorem walkOnto_leveled {p : Program} (hp : p.IsNative) (d : Nat) :
    (walkOnto d p []).map leveled = outlineFrom d p.tokens := by
  induction p generalizing d with
  | nil => rfl
  | instr i rest ih =>
    cases i with
    | foreign name => exact hp.1.elim
    | op o =>
      have hrest := ih hp.2 d
      rw [tokens, Instruction.tokens, List.singleton_append, outlineFrom_cons, balance_op,
        balance_nil, add_zero, ← hrest]
      rfl
  | loop body rest ihb ih =>
    have hbody := ihb hp.1 (d + 1)
    have hrest := ih hp.2 d
    have hwalk : walkOnto d (loop body rest) [] =
        (d, .loop) :: (walkOnto (d + 1) body [] ++ walkOnto d rest []) := by
      rw [walkOnto, walkOnto_eq body]
    have hinside : (d : Int) + balance [.loopBegin] = (d + 1 : Nat) := by
      simp
    have hbehind : ((d + 1 : Nat) : Int) + balance body.tokens + balance [.loopEnd] = d := by
      simp
    rw [hwalk, List.map_cons, List.map_append, hbody, hrest, tokens, List.cons_append,
      outlineFrom_cons, hinside, outlineFrom_append, outlineFrom_cons, hbehind]
    rfl

/-! ## Depths -/

/-- Nothing in a walk lies above the depth at which it begins. -/
theorem le_of_mem_walkOnto {p : Program} {d : Nat} {e : Nat × Node} (h : e ∈ walkOnto d p []) :
    d ≤ e.1 := by
  induction p generalizing d with
  | nil => cases h
  | instr i rest ih =>
    rcases List.mem_cons.1 h with rfl | h
    · exact le_refl d
    · exact ih h
  | loop body rest ihb ih =>
    rw [walkOnto, walkOnto_eq body, List.mem_cons, List.mem_append] at h
    rcases h with rfl | h | h
    · exact le_refl d
    · have := ihb h
      omega
    · exact ih h

/-- The top-level sequence is what a walk lists at the depth at which it begins. -/
theorem countP_walkOnto (p : Program) (d : Nat) :
    (walkOnto d p []).countP (fun e => e.1 == d) = p.length := by
  induction p with
  | nil => rfl
  | instr i rest ih => simp [walkOnto, ih, length]
  | loop body rest _ ih =>
    have hbody : (walkOnto (d + 1) body []).countP (fun e => e.1 == d) = 0 := by
      rw [List.countP_eq_zero]
      intro e he hd
      have hle := le_of_mem_walkOnto he
      have heq : e.1 = d := eq_of_beq hd
      omega
    rw [walkOnto, walkOnto_eq body, List.countP_cons_of_pos (by simp), List.countP_append, hbody, ih,
      length, Nat.zero_add]

/-! ## From walks to programs -/

/-- What is listed begins above a depth, if with anything. -/
def BeginsAbove (d : Nat) (tail : List (Nat × Node)) : Prop := ∀ e ∈ tail.head?, e.1 < d

theorem BeginsAbove.ne_cons {d : Nat} {tail rest : List (Nat × Node)} {n : Node}
    (h : BeginsAbove d tail) : tail ≠ (d, n) :: rest := by
  rintro rfl
  have hlt : d < d := h (d, n) rfl
  omega

/-- Behind the body of a loop, what the rest of the sequence lists begins above the body. -/
theorem BeginsAbove.walkOnto {d : Nat} {tail : List (Nat × Node)} (h : BeginsAbove d tail)
    (p : Program) : BeginsAbove (d + 1) (walkOnto d p tail) := by
  intro e he
  cases p with
  | nil =>
    have hlt := h e he
    omega
  | instr i rest | loop body rest =>
    cases he
    exact Nat.lt_succ_self d

/-- A walk can be told from what is listed behind it, where that begins above it, and no other program
has it. -/
theorem walkOnto_inj {p q : Program} {d : Nat} {tail tail' : List (Nat × Node)}
    (htail : BeginsAbove d tail) (htail' : BeginsAbove d tail')
    (h : walkOnto d p tail = walkOnto d q tail') : p = q ∧ tail = tail' := by
  induction p generalizing q d tail tail' with
  | nil =>
    cases q with
    | nil => exact ⟨rfl, h⟩
    | instr i rest | loop body rest => exact absurd h htail.ne_cons
  | instr i rest ih =>
    cases q with
    | nil => exact absurd h.symm htail'.ne_cons
    | loop body rest' => cases h
    | instr i' rest' =>
      injection h with hhead hrest
      cases hhead
      obtain ⟨rfl, rfl⟩ := ih htail htail' hrest
      exact ⟨rfl, rfl⟩
  | loop body rest ihb ih =>
    cases q with
    | nil => exact absurd h.symm htail'.ne_cons
    | instr i rest' => cases h
    | loop body' rest' =>
      injection h with _ hinside
      obtain ⟨rfl, hrest⟩ := ihb (htail.walkOnto rest) (htail'.walkOnto rest') hinside
      obtain ⟨rfl, rfl⟩ := ih htail htail' hrest
      exact ⟨rfl, rfl⟩

theorem walk_inj {p q : Program} (h : p.walk = q.walk) : p = q := by
  have hnil : BeginsAbove 0 [] := nofun
  exact (walkOnto_inj hnil hnil h).1

/-- A sequence of tokens that can be arranged is walked in its own order: the walk lists its tokens but
the loop ends, an operation as itself and a loop begin as its loop, each at the depth that is the
number of loop begins less loop ends before it. At the top level there are so many instructions and
loops as entries of depth zero. And where two such sequences are arranged into programs with the same
walk, they are the same. -/
theorem walk_lists_tokens :
    (∀ (ts : List Token) (p : Program), ofTokens ts = .ok p →
      p.walk.map leveled = outline ts ∧ p.length = p.walk.countP fun e => e.1 == 0) ∧
    (∀ (ts us : List Token) (p q : Program), ofTokens ts = .ok p → ofTokens us = .ok q →
      p.walk = q.walk → ts = us) := by
  refine ⟨fun ts p h => ?_, fun ts us p q hp hq hwalk => ?_⟩
  · obtain ⟨hnative, rfl⟩ := tokens_of_ofTokens h
    constructor
    · rw [← outlineFrom_zero]
      exact walkOnto_leveled hnative 0
    · exact (countP_walkOnto p 0).symm
  · rw [← (tokens_of_ofTokens hp).2, ← (tokens_of_ofTokens hq).2, walk_inj hwalk]

/-- The tokens `+[>[-]].` list an increment, a loop with a move and an inner loop in it, and a write,
three of them at the top level; the tokens `[][]` and `[[]]` list two loops each, at other depths. -/
theorem walk_lists_tokens_nested :
    (∃ p, ofTokens [.op .increment, .loopBegin, .op .right, .loopBegin, .op .decrement, .loopEnd,
        .loopEnd, .op .write] = .ok p ∧
      p.walk.map leveled = [(0, .instr (.op .increment)), (0, .loop), (1, .instr (.op .right)),
        (1, .loop), (2, .instr (.op .decrement)), (0, .instr (.op .write))] ∧ p.length = 3) ∧
    ∃ p q, ofTokens [.loopBegin, .loopEnd, .loopBegin, .loopEnd] = .ok p ∧
      ofTokens [.loopBegin, .loopBegin, .loopEnd, .loopEnd] = .ok q ∧ p.walk ≠ q.walk := by
  refine ⟨⟨_, rfl, ?_⟩, _, _, rfl, rfl, fun h => ?_⟩
  · obtain ⟨hwalk, hlength⟩ := walk_lists_tokens.1 [.op .increment, .loopBegin, .op .right,
      .loopBegin, .op .decrement, .loopEnd, .loopEnd, .op .write] _ rfl
    exact ⟨hwalk.trans (by decide), hlength.trans (by decide)⟩
  · have := walk_lists_tokens.2 [.loopBegin, .loopEnd, .loopBegin, .loopEnd]
      [.loopBegin, .loopBegin, .loopEnd, .loopEnd] _ _ rfl rfl h
    cases this

end Program

end ByteTape
