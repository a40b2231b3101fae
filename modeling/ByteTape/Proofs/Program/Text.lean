/-
The written form of a program can be read back, so no two programs share one. The words in it are the
tokens of the program, in order: a word is found where it stands because none is the beginning of
another, and what stands between the words, a comma, a blank or a parenthesis, begins none. A comma
tells a tuple of one from that one in parentheses, but the reader can do without it: the two closing
parentheses of a loop are never those of an instruction, which are part of its word.
-/
import ByteTape.Program.Text.Reader
import ByteTape.Proofs.Program.Spelling

namespace ByteTape

namespace Token

/-! ## Words -/

/-- No word is the beginning of another. -/
theorem wordAt?_word (t : Token) (rest : List Char) : wordAt? (t.word ++ rest) = some t := by
  cases t with
  | op o => cases o <;> rfl
  | loopBegin | loopEnd => rfl

theorem inText_skip (passed rest : List Char) :
    inText passed.length (passed ++ rest) = inText 0 rest := by
  induction passed with
  | nil => rfl
  | cons c passed ih =>
    rw [List.length_cons, List.cons_append, inText]
    exact ih

theorem inText_of_none {c : Char} {rest : List Char} (h : wordAt? (c :: rest) = none) :
    inText 0 (c :: rest) = inText 0 rest := by
  rw [inText]
  simp only [h]

theorem inText_word (t : Token) (rest : List Char) :
    inText 0 (t.word ++ rest) = t :: inText 0 rest := by
  have hword := wordAt?_word t rest
  obtain ⟨c, cs, hcs⟩ : ∃ c cs, t.word = c :: cs := by
    cases t with
    | op o => cases o <;> exact ⟨_, _, rfl⟩
    | loopBegin | loopEnd => exact ⟨_, _, rfl⟩
  rw [hcs, List.cons_append] at hword ⊢
  have hlength : t.word.length - 1 = cs.length := by rw [hcs]; rfl
  rw [inText]
  simp only [hword, hlength, inText_skip]

/-! ## What stands between words -/

@[simp] theorem inText_comma (rest : List Char) : inText 0 (',' :: rest) = inText 0 rest :=
  inText_of_none rfl

@[simp] theorem inText_blank (rest : List Char) : inText 0 (' ' :: rest) = inText 0 rest :=
  inText_of_none rfl

theorem inText_open (rest : List Char) : inText 0 ('(' :: rest) = inText 0 rest :=
  inText_of_none rfl

theorem inText_close : inText 0 [')'] = [] := rfl

end Token

namespace Text

/-- What stands between the parentheses of a tuple. -/
def inside : List (List Char) → List Char
  | [] => []
  | [x] => x ++ [',']
  | x :: y :: r => x ++ (y :: r).flatMap (fun z => ',' :: ' ' :: z)

theorem tuple_eq (xs : List (List Char)) : tuple xs = '(' :: inside xs ++ [')'] := by
  match xs with
  | [] => rfl
  | [x] => simp [tuple, inside]
  | x :: y :: r => rfl

end Text

namespace Program

/-! ## Tokens in a written form -/

/-- Whether each item has a comma in front, or a comma stands behind a single one, or between two, is
the same to the reader. -/
theorem inText_inside {items : List (List Char)} {ts : List Token}
    (h : ∀ rest, Token.inText 0 (items.flatMap (fun z => ',' :: ' ' :: z) ++ rest) =
      ts ++ Token.inText 0 rest) (rest : List Char) :
    Token.inText 0 (Text.inside items ++ rest) = ts ++ Token.inText 0 rest := by
  match items with
  | [] => exact h rest
  | [x] =>
    have hx := h (',' :: rest)
    simpa [Text.inside] using hx
  | x :: y :: r =>
    have hx := h rest
    simpa [Text.inside] using hx

/-- The written form of a loop, taken apart at the two words around what its body holds. -/
theorem loop_text (items : List (List Char)) (rest : List Char) :
    ("Loop(body=".toList ++ Text.tuple items ++ [')']) ++ rest =
      Token.loopBegin.word ++ (Text.inside items ++ (Token.loopEnd.word ++ rest)) := by
  have hbegin : Token.loopBegin.word = "Loop(body=".toList ++ ['('] := rfl
  have hend : Token.loopEnd.word = [')'] ++ [')'] := rfl
  rw [Text.tuple_eq, hbegin, hend]
  simp only [List.append_assoc, List.cons_append, List.nil_append]

/-- The items of a program, in the midst of a text, hold the words of its tokens. -/
theorem inText_items {p : Program} (hp : p.IsNative) (rest : List Char) :
    Token.inText 0 (p.items.flatMap (fun z => ',' :: ' ' :: z) ++ rest) =
      p.tokens ++ Token.inText 0 rest := by
  induction p generalizing rest with
  | nil => rfl
  | instr i p ih =>
    cases i with
    | foreign name => exact hp.1.elim
    | op o =>
      rw [items, List.flatMap_cons, List.append_assoc, List.cons_append, List.cons_append,
        Token.inText_comma, Token.inText_blank]
      show Token.inText 0 ((Token.op o).word ++ _) = _
      rw [Token.inText_word, ih hp.2]
      rfl
  | loop body p ihb ih =>
    rw [items, List.flatMap_cons, List.append_assoc, List.cons_append, List.cons_append,
      Token.inText_comma, Token.inText_blank, loop_text, Token.inText_word,
      inText_inside (ihb hp.1), Token.inText_word, ih hp.2]
    simp [tokens]

theorem inText_text {p : Program} (hp : p.IsNative) : Token.inText 0 p.text.toList = p.tokens := by
  rw [text, String.toList_ofList, Text.tuple_eq, List.cons_append, Token.inText_open,
    inText_inside (inText_items hp), Token.inText_close, List.append_nil]

/-! ## Reading back -/

/-- A text is read as a program exactly if it is the written form of that program. -/
theorem ofText?_eq_some_iff {s : String} {p : Program} :
    ofText? s = some p ↔ p.IsNative ∧ p.text = s := by
  constructor
  · intro h
    unfold ofText? at h
    split at h
    · cases h
    · rename_i q hq
      split at h
      · rename_i htext
        cases h
        exact ⟨(tokens_of_ofTokens hq).1, htext⟩
      · cases h
  · rintro ⟨hp, rfl⟩
    simp only [ofText?, inText_text hp, ofTokens_tokens hp, if_pos]

/-- The written form of a program is its own: a text is read as a program exactly if the program is
built from the operations of the language alone and is written so, and two such programs that are
written alike are the same. -/
theorem text_unambiguous :
    (∀ (s : String) (p : Program), ofText? s = some p ↔ p.IsNative ∧ p.text = s) ∧
    (∀ p q : Program, p.IsNative → q.IsNative → (p.text = q.text ↔ p = q)) := by
  refine ⟨fun s p => ofText?_eq_some_iff, fun p q hp hq => ⟨fun h => ?_, congrArg text⟩⟩
  have hread : ofText? q.text = some p := ofText?_eq_some_iff.2 ⟨hp, h⟩
  rw [ofText?_eq_some_iff.2 ⟨hq, rfl⟩] at hread
  cases hread
  rfl

/-- A loop with one empty loop in it, and two empty loops in a row, are written differently, and each
form is read back; without its comma the first is no written form. -/
theorem text_unambiguous_empty_loops :
    let nested : Program := .loop (.loop .nil .nil) .nil
    let twice : Program := .loop .nil (.loop .nil .nil)
    nested.text = "(Loop(body=(Loop(body=()),)),)" ∧
      twice.text = "(Loop(body=()), Loop(body=()))" ∧ nested.text ≠ twice.text ∧
      ofText? "(Loop(body=(Loop(body=()),)),)" = some nested ∧
      ofText? "(Loop(body=(Loop(body=()))),)" = none := by
  intro nested twice
  obtain ⟨hread, hsame⟩ := text_unambiguous
  have hnested : nested.IsNative := ⟨⟨trivial, trivial⟩, trivial⟩
  have htwice : twice.IsNative := ⟨trivial, trivial, trivial⟩
  refine ⟨rfl, rfl, fun h => ?_, (hread _ nested).2 ⟨hnested, rfl⟩, rfl⟩
  exact absurd ((hsame nested twice hnested htwice).1 h) (by decide)

end Program

end ByteTape
