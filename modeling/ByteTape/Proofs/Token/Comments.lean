/-
Where in a source the bytes stand that strict reading looks at. Cut into lines and read up to the first
two slashes in a row, a source keeps the bytes that are neither line breaks nor in a comment, with the
offsets at which they stand, in order; so the first one among them that does not belong there is the one
with the least offset in the source.
-/
import ByteTape.Proofs.Token.Lines

namespace ByteTape.Token

/-- The byte at offset `i` is in a comment: at it or earlier in its line begin two slashes in a row. -/
def InComment (source : List UInt8) (i : Nat) : Prop :=
  ∃ j ≤ i, source[j]? = some slash ∧ source[j + 1]? = some slash ∧
    ∀ k, j ≤ k → k ≤ i → source[k]? ≠ some newline

/-- No line break stands at offset `i` or earlier. -/
def InFirstLine (source : List UInt8) (i : Nat) : Prop := ∀ k ≤ i, source[k]? ≠ some newline

/-! ## One byte in front -/

section

variable {b : UInt8} {rest : List UInt8} {i : Nat}

theorem inFirstLine_zero : InFirstLine (b :: rest) 0 ↔ b ≠ newline := by
  simp [InFirstLine]

theorem inFirstLine_succ : InFirstLine (b :: rest) (i + 1) ↔ b ≠ newline ∧ InFirstLine rest i := by
  constructor
  · intro h
    exact ⟨by simpa using h 0 (Nat.zero_le _), fun k hk => by simpa using h (k + 1) (by omega)⟩
  · rintro ⟨hb, h⟩ k hk
    cases k with
    | zero => simpa using hb
    | succ k => simpa using h k (by omega)

theorem getElem?_one_cons : (b :: rest)[1]? = rest.head? := by
  rw [List.getElem?_cons_succ, List.head?_eq_getElem?]

theorem inComment_zero : InComment (b :: rest) 0 ↔ b = slash ∧ rest.head? = some slash := by
  constructor
  · rintro ⟨j, hj, hslash, hnext, -⟩
    obtain rfl : j = 0 := by omega
    exact ⟨by simpa using hslash, getElem?_one_cons.symm.trans hnext⟩
  · rintro ⟨rfl, hnext⟩
    have hline : InFirstLine (slash :: rest) 0 := inFirstLine_zero.2 (by decide)
    exact ⟨0, le_refl _, rfl, getElem?_one_cons.trans hnext, fun k _ hk => hline k hk⟩

/-- A comment behind the first byte may have begun with it. -/
theorem inComment_succ : InComment (b :: rest) (i + 1) ↔
    (b = slash ∧ rest.head? = some slash) ∧ InFirstLine rest i ∨ InComment rest i := by
  constructor
  · rintro ⟨j, hj, hslash, hnext, hline⟩
    cases j with
    | zero =>
      refine .inl ⟨⟨by simpa using hslash, getElem?_one_cons.symm.trans hnext⟩, fun k hk => ?_⟩
      simpa using hline (k + 1) (by omega) (by omega)
    | succ j =>
      refine .inr ⟨j, by omega, by simpa using hslash, by simpa using hnext, fun k hjk hk => ?_⟩
      simpa using hline (k + 1) (by omega) (by omega)
  · rintro (⟨⟨rfl, hnext⟩, hline⟩ | ⟨j, hj, hslash, hnext, hline⟩)
    · have hline : InFirstLine (slash :: rest) (i + 1) := inFirstLine_succ.2 ⟨by decide, hline⟩
      exact ⟨0, by omega, rfl, getElem?_one_cons.trans hnext, fun k _ hk => hline k hk⟩
    · refine ⟨j + 1, by omega, by simpa using hslash, by simpa using hnext, fun k hjk hk => ?_⟩
      obtain ⟨k, rfl⟩ : ∃ l, k = l + 1 := ⟨k - 1, by omega⟩
      simpa using hline k (by omega) (by omega)

end

/-! ## What is kept, and in which order -/

/-- A byte is kept unless it is a line break or in a comment, be it the one in which the source
begins. -/
theorem mem_keptFrom_iff (source : List UInt8) (offset : Nat) (inComment : Bool) (b : UInt8) (n : Nat) :
    (b, n) ∈ keptFrom offset inComment source ↔ ∃ i, n = offset + i ∧ source[i]? = some b ∧
      b ≠ newline ∧ ¬ (inComment = true ∧ InFirstLine source i) ∧ ¬ InComment source i := by
  induction source generalizing offset inComment with
  | nil => cases inComment <;> simp [keptFrom, Text.pieces, code]
  | cons a rest ih =>
    -- the byte in front, or one of those behind it, which stand one further
    rw [← Nat.or_exists_add_one]
    simp only [inFirstLine_zero, inFirstLine_succ, inComment_zero, inComment_succ,
      List.getElem?_cons_succ, List.getElem?_cons_zero]
    have hnext : ∀ i, offset + 1 + i = offset + (i + 1) := fun i => by omega
    by_cases hline : a = newline
    · -- a line break is not kept, and no comment goes on behind it
      subst hline
      have hslash : newline ≠ slash := by decide
      rw [keptFrom_newline, ih, or_iff_right fun h => h.2.2.1 (Option.some.inj h.2.1).symm]
      exact exists_congr fun i => by simp [hnext, hslash]
    · cases inComment with
      | true =>
        rw [keptFrom_comment hline, ih, or_iff_right fun h => h.2.2.2.1 ⟨rfl, hline⟩]
        exact exists_congr fun i => by rw [hnext]; tauto
      | false =>
        rw [keptFrom_code hline]
        split
        · rename_i hpair
          rw [ih, or_iff_right fun h => h.2.2.2.2 hpair]
          exact exists_congr fun i => by rw [hnext]; tauto
        · rename_i hpair
          have hhead : (b, n) = (a, offset) ↔ n = offset ∧ a = b := by grind
          rw [List.mem_cons, ih]
          refine or_congr ?_ (exists_congr fun i => ?_)
          · rw [hhead]
            grind
          · rw [hnext]
            tauto

/-- What is kept are the bytes that are neither line breaks nor in a comment, where they stand. -/
theorem mem_kept_iff {source : List UInt8} {b : UInt8} {i : Nat} :
    (b, i) ∈ kept source ↔ source[i]? = some b ∧ b ≠ newline ∧ ¬ InComment source i := by
  have hkept : kept source = keptFrom 0 false source := rfl
  rw [hkept, mem_keptFrom_iff]
  simp

/-- Bytes are kept in the order in which they stand in the source. -/
theorem kept_increasing (source : List UInt8) : (kept source).Pairwise (·.2 < ·.2) := by
  have hsource : source.zipIdx.Pairwise (·.2 < ·.2) := by
    rw [← List.pairwise_map, List.zipIdx_map_snd]
    exact List.pairwise_lt_range'
  have hkept : (kept source).Sublist source.zipIdx := by
    refine (flatMap_code_sublist _ _).trans ?_
    rw [Text.flatten_pieces]
    exact List.filter_sublist
  exact hsource.sublist hkept

/-! ## The byte that is refused -/

theorem isBlank_iff {b : UInt8} :
    isBlank b ↔ b ∈ ([0x20, 0x09, 0x0a, 0x0d, 0x0b, 0x0c] : List UInt8) := by
  simp only [isBlank, decide_eq_true_eq, List.mem_cons, List.not_mem_nil, or_false,
    UInt8.le_iff_toNat_le, ← UInt8.toNat_inj, UInt8.reduceToNat]
  omega

/-- What may stand outside comments: the symbols and the blanks. -/
theorem isPermitted_iff {b : UInt8} : isPermitted b ↔
    (∃ t : Token, b = t.byte) ∨ b ∈ ([0x20, 0x09, 0x0a, 0x0d, 0x0b, 0x0c] : List UInt8) := by
  rw [isPermitted, Bool.or_eq_true, isBlank_iff, Option.isSome_iff_exists]
  simp only [ofByte?_eq_some_iff]

/-- Of the bytes kept that are not permitted, the first in the list is the first in the source. -/
theorem offset_le_of_find? {source : List UInt8} {k l : UInt8 × Nat}
    (hk : (kept source).find? (fun k => !isPermitted k.1) = some k) (hl : l ∈ kept source)
    (hbad : ¬ isPermitted l.1) : k.2 ≤ l.2 := by
  obtain ⟨-, before, behind, hkept, hbefore⟩ := List.find?_eq_some_iff_append.1 hk
  have hordered := kept_increasing source
  rw [hkept] at hl hordered
  -- before the one found all are permitted, and behind it the offsets are larger
  rcases List.mem_append.1 hl with hl | hl
  · have hgood := hbefore l hl
    simp [hbad] at hgood
  · rcases List.mem_cons.1 hl with rfl | hl
    · exact le_refl _
    · exact (List.rel_of_pairwise_cons (List.pairwise_append.1 hordered).2.1 hl).le

/-- Strict reading looks, line by line, at the bytes before the first two slashes in a row, and at
those only. If each of them is a symbol or a blank, it gives the symbols among them, in order; or
else it refuses the one with the least offset in the source that is neither. -/
theorem strict_reads_line_by_line (source : List UInt8) :
    (∀ b i, (b, i) ∈ kept source ↔ source[i]? = some b ∧ b ≠ newline ∧ ¬ InComment source i) ∧
    (kept source).Pairwise (·.2 < ·.2) ∧
    (∀ b, isPermitted b ↔
      (∃ t : Token, b = t.byte) ∨ b ∈ ([0x20, 0x09, 0x0a, 0x0d, 0x0b, 0x0c] : List UInt8)) ∧
    ((∀ k ∈ kept source, isPermitted k.1) ∧
        lex true source = .ok ((kept source).filterMap fun k => ofByte? k.1) ∨
      ∃ b i, lex true source = .error (.unexpectedByte b i) ∧ (b, i) ∈ kept source ∧
        ¬ isPermitted b ∧ ∀ k ∈ kept source, ¬ isPermitted k.1 → i ≤ k.2) := by
  refine ⟨fun b i => mem_kept_iff, kept_increasing source, fun b => isPermitted_iff, ?_⟩
  have hlex : lex true source = ofLines source := strict_eq_ofLines source
  rw [hlex, ofLines]
  cases hbad : (kept source).find? fun k => !isPermitted k.1 with
  | none => exact .inl ⟨by simpa using hbad, rfl⟩
  | some k =>
    have hk := List.find?_some hbad
    exact .inr ⟨k.1, k.2, rfl, List.mem_of_find?_eq_some hbad, by simpa using hk,
      fun l hl => offset_le_of_find? hbad hl⟩

/-- A comment may hold anything, and a slash that begins none is refused where it stands. -/
example : lex true [0x2b, slash, slash, 0x41, newline, 0x0d, 0x2d] =
      .ok [.op .increment, .op .decrement] ∧
    lex true [0x2b, slash, slash, 0x41, newline, slash, 0x2d] =
      .error (.unexpectedByte slash 5) := by
  decide

end ByteTape.Token
