/-
Strict reading, byte by byte, is the line-wise reading. The scan is followed from any byte on: what
it has yet to keep is what the lines from there on keep, less the first of them where the scan is
inside a comment. So a source can be read strictly exactly when all bytes outside its comments are
permitted, and its tokens are the symbols among them. The permissive reading takes the symbols inside
comments as well, and the two readings agree exactly where there are none.
-/
import ByteTape.Token.Lines
import Mathlib.Data.List.Perm.Basic
import Mathlib.Tactic

namespace ByteTape.Token

/-! ## What is kept -/

/-- What the lines from the byte at `offset` on keep; of the first line nothing, if that byte is
inside a comment. -/
def keptFrom (offset : Nat) (inComment : Bool) (source : List UInt8) : List (UInt8 × Nat) :=
  let lines := Text.pieces (·.1 == newline) (source.zipIdx offset)
  (if inComment then lines.tail else lines).flatMap (code (·.1 == slash))

section

variable {offset : Nat} {b : UInt8} {rest : List UInt8}

/-- A line break ends a comment, and is itself not kept. -/
theorem keptFrom_newline (inComment : Bool) :
    keptFrom offset inComment (newline :: rest) = keptFrom (offset + 1) false rest := by
  have hlines : Text.pieces (·.1 == newline) ((newline, offset) :: rest.zipIdx (offset + 1)) =
      [] :: Text.pieces (·.1 == newline) (rest.zipIdx (offset + 1)) :=
    Text.pieces_cons_separator rfl _
  unfold keptFrom
  rw [List.zipIdx_cons, hlines]
  cases inComment <;> rfl

/-- Any other byte stands at the beginning of the line that goes on behind it. -/
theorem lines_cons (offset : Nat) (rest : List UInt8) (hb : b ≠ newline) : ∃ line more,
    Text.pieces (·.1 == newline) (rest.zipIdx (offset + 1)) = line :: more ∧
      Text.pieces (·.1 == newline) ((b, offset) :: rest.zipIdx (offset + 1)) =
        ((b, offset) :: line) :: more := by
  have hline : ((b, offset).1 == newline) = false := by simpa using hb
  obtain ⟨line, more, hrest⟩ := List.exists_cons_of_ne_nil
    (Text.pieces_ne_nil (·.1 == newline) (rest.zipIdx (offset + 1)))
  exact ⟨line, more, hrest, Text.pieces_cons hline hrest⟩

/-- Within its line, a comment goes on. -/
theorem keptFrom_comment (hb : b ≠ newline) :
    keptFrom offset true (b :: rest) = keptFrom (offset + 1) true rest := by
  obtain ⟨line, more, hrest, hlines⟩ := lines_cons offset rest hb
  unfold keptFrom
  rw [List.zipIdx_cons, hlines, hrest]
  rfl

/-- What a byte outside comments does to its line: two slashes make the rest of it a comment, and
any other byte is kept. -/
theorem keptFrom_code (hb : b ≠ newline) :
    keptFrom offset false (b :: rest) =
      if b = slash ∧ rest.head? = some slash then keptFrom (offset + 1) true rest
      else (b, offset) :: keptFrom (offset + 1) false rest := by
  obtain ⟨line, more, hrest, hlines⟩ := lines_cons offset rest hb
  -- the second slash of a pair is on the same line, since it is no line break
  have hslash : ∀ k : UInt8 × Nat, (k.1 == slash) = true → (k.1 == newline) = false := by
    intro k hk
    rw [eq_of_beq hk]
    rfl
  have hnext : line.head?.any (·.1 == slash) = true ↔ rest.head? = some slash := by
    rw [Text.any_head?_pieces hslash hrest]
    cases rest <;> simp
  unfold keptFrom
  rw [List.zipIdx_cons, hlines, hrest]
  by_cases hpair : b = slash ∧ rest.head? = some slash
  · have hcode : code (·.1 == slash) ((b, offset) :: line) = [] := by
      rw [code, if_pos (by simp [hpair.1, hnext.2 hpair.2])]
    rw [if_pos hpair]
    simp [hcode]
  · have hcode : code (·.1 == slash) ((b, offset) :: line) =
        (b, offset) :: code (·.1 == slash) line := by
      rw [code, if_neg]
      simp only [Bool.and_eq_true, beq_iff_eq, hnext]
      exact hpair
    rw [if_neg hpair]
    simp [hcode]

end

/-! ## From the scan to the lines -/

/-- The reading of what is kept: the first byte that is not permitted is refused. -/
def ofKept (ks : List (UInt8 × Nat)) : Except Error (List Token) :=
  match ks.find? (fun k => !isPermitted k.1) with
  | some (b, offset) => .error (.unexpectedByte b offset)
  | none => .ok (ks.filterMap fun k => ofByte? k.1)

section

variable {b : UInt8} {offset : Nat} (ks : List (UInt8 × Nat))

theorem ofKept_symbol {t : Token} (h : ofByte? b = some t) :
    ofKept ((b, offset) :: ks) = (ofKept ks).map (t :: ·) := by
  have hpermitted : isPermitted b = true := by simp [isPermitted, h]
  unfold ofKept
  rw [List.find?_cons_of_neg (by simp [hpermitted])]
  cases ks.find? _ with
  | some k => rfl
  | none => simp [h, Except.map]

theorem ofKept_blank (h : ofByte? b = none) (hblank : isBlank b) :
    ofKept ((b, offset) :: ks) = ofKept ks := by
  have hpermitted : isPermitted b = true := by simp [isPermitted, hblank]
  unfold ofKept
  rw [List.find?_cons_of_neg (by simp [hpermitted])]
  cases ks.find? _ with
  | some k => rfl
  | none => simp [h]

theorem ofKept_refused (h : ofByte? b = none) (hblank : ¬ isBlank b) :
    ofKept ((b, offset) :: ks) = .error (.unexpectedByte b offset) := by
  unfold ofKept
  rw [List.find?_cons_of_pos (by simp [isPermitted, h, hblank])]

end

theorem scan_eq_ofKept (source : List UInt8) (offset : Nat) (inComment : Bool) :
    scan offset inComment [] source = ofKept (keptFrom offset inComment source) := by
  induction source generalizing offset inComment with
  | nil => cases inComment <;> rfl
  | cons b rest ih =>
    by_cases hline : b = newline
    · -- the scan passes over a line break, as blank or as the end of a comment
      subst hline
      rw [keptFrom_newline, ← ih]
      cases inComment <;> rfl
    · cases inComment with
      | true =>
        have hb : (b != newline) = true := by simpa using hline
        rw [keptFrom_comment hline, ← ih, scan, if_pos rfl, hb]
      | false =>
        rw [keptFrom_code hline, scan, if_neg (by simp)]
        cases ht : ofByte? b with
        | some t =>
          have hslash : ¬ (b = slash ∧ rest.head? = some slash) := by
            rintro ⟨rfl, -⟩
            cases ht
          simp only [if_neg hslash]
          rw [ofKept_symbol _ ht, ← ih]
          exact scan_found rest (offset + 1) false [t]
        | none =>
          by_cases hpair : b = slash ∧ rest.head? = some slash
          · simp only [if_pos hpair, ih]
          · simp only [if_neg hpair]
            by_cases hblank : isBlank b = true
            · rw [if_pos hblank, ofKept_blank _ ht hblank, ih]
            · rw [if_neg hblank, ofKept_refused _ ht hblank]

/-- Strict reading is the line-wise reading. -/
theorem strict_eq_ofLines (source : List UInt8) : strict source = ofLines source :=
  scan_eq_ofKept source 0 false

/-! ## Sources that can be read strictly -/

theorem code_map {α β : Type} (f : α → β) (isSlash : β → Bool) (l : List α) :
    code isSlash (l.map f) = (code (fun a => isSlash (f a)) l).map f := by
  induction l with
  | nil => rfl
  | cons a rest ih =>
    have hnext : (rest.map f).head?.any isSlash = rest.head?.any fun a => isSlash (f a) := by
      cases rest <;> rfl
    rw [List.map_cons, code, code, hnext]
    split
    · rfl
    · rw [ih, List.map_cons]

/-- Without their offsets, the kept bytes are those outside comments and line breaks. -/
theorem map_fst_kept (source : List UInt8) : (kept source).map Prod.fst = uncommented source := by
  have hsource : source = source.zipIdx.map Prod.fst := (List.zipIdx_map_fst 0 source).symm
  have hlines : Text.pieces (· == newline) source =
      (Text.pieces (fun k : UInt8 × Nat => k.1 == newline) source.zipIdx).map (List.map Prod.fst) := by
    conv_lhs => rw [hsource]
    exact Text.pieces_map Prod.fst _ _
  rw [kept, uncommented, hlines, List.map_flatMap, List.flatMap_map]
  simp only [code_map]

/-- A source can be read strictly if all bytes outside its comments are permitted, and then its
tokens are the symbols among them. -/
theorem strict_eq_ok_iff {source : List UInt8} {ts : List Token} :
    strict source = .ok ts ↔
      (∀ b ∈ uncommented source, isPermitted b) ∧ (uncommented source).filterMap ofByte? = ts := by
  have htokens : (kept source).filterMap (fun k => ofByte? k.1) =
      (uncommented source).filterMap ofByte? := by
    rw [← map_fst_kept, List.filterMap_map]
    rfl
  have hpermitted : (kept source).find? (fun k => !isPermitted k.1) = none ↔
      ∀ b ∈ uncommented source, isPermitted b := by
    simp [← map_fst_kept]
  rw [strict_eq_ofLines, ofLines, ← hpermitted, ← htokens]
  cases (kept source).find? (fun k => !isPermitted k.1) with
  | some k => simp
  | none => simp

theorem uncommented_append_newline (a b : List UInt8) :
    uncommented (a ++ newline :: b) = uncommented a ++ uncommented b := by
  have hlines : Text.pieces (· == newline) (a ++ newline :: b) =
      Text.pieces (· == newline) a ++ Text.pieces (· == newline) b :=
    Text.pieces_append_cons rfl a b
  rw [uncommented, hlines, List.flatMap_append]
  rfl

/-- Sources that can be read strictly can be read one after the other, if a line break between them
ends the last comment of the first. -/
theorem strict_append_newline {a b : List UInt8} {ts us : List Token} (ha : strict a = .ok ts)
    (hb : strict b = .ok us) : strict (a ++ newline :: b) = .ok (ts ++ us) := by
  obtain ⟨hpa, rfl⟩ := strict_eq_ok_iff.1 ha
  obtain ⟨hpb, rfl⟩ := strict_eq_ok_iff.1 hb
  rw [strict_eq_ok_iff, uncommented_append_newline]
  exact ⟨List.forall_mem_append.2 ⟨hpa, hpb⟩, List.filterMap_append⟩

/-! ## Symbols inside comments -/

/-- Comments are taken out of the lines, and nothing else happens to them. -/
theorem flatMap_code_sublist {α : Type} (isSlash : α → Bool) (lines : List (List α)) :
    (lines.flatMap (code isSlash)).Sublist lines.flatten := by
  induction lines with
  | nil => exact .slnil
  | cons line more ih =>
    have hcode : (code isSlash line).Sublist line := by
      conv_rhs => rw [← code_append_comment isSlash line]
      exact List.sublist_append_left _ _
    exact hcode.append ih

theorem uncommented_sublist (source : List UInt8) : (uncommented source).Sublist source := by
  refine (flatMap_code_sublist _ _).trans ?_
  rw [Text.flatten_pieces]
  exact List.filter_sublist

/-- The permissive tokens are those outside comments and those inside. -/
theorem permissive_perm (source : List UInt8) :
    (permissive source).Perm
      ((uncommented source).filterMap ofByte? ++ (commented source).filterMap ofByte?) := by
  have hlines : (uncommented source ++ commented source).Perm
      (source.filter fun b => !(b == newline)) := by
    rw [← Text.flatten_pieces, uncommented, commented]
    refine (List.flatMap_append_perm _ _ _).trans (.of_eq ?_)
    simp only [code_append_comment, List.flatMap_id']
  have hnewline : permissive source = (source.filter fun b => !(b == newline)).filterMap ofByte? := by
    rw [permissive, List.filterMap_filter]
    refine List.filterMap_congr fun b _ => ?_
    by_cases hb : b = newline
    · subst hb
      rfl
    · simp [hb]
  rw [hnewline, ← List.filterMap_append]
  exact (hlines.symm).filterMap ofByte?

/-- The tokens outside comments are all the tokens exactly where no symbol is inside one. -/
theorem tokens_uncommented_eq_iff (source : List UInt8) :
    (uncommented source).filterMap ofByte? = permissive source ↔
      ∀ b ∈ commented source, ofByte? b = none := by
  have hlength := (permissive_perm source).length_eq
  rw [List.length_append] at hlength
  rw [← List.filterMap_eq_nil_iff]
  constructor
  · intro h
    rw [h] at hlength
    exact List.length_eq_zero_iff.1 (by omega)
  · intro h
    rw [h, List.length_nil] at hlength
    have hsublist : ((uncommented source).filterMap ofByte?).Sublist (permissive source) :=
      (uncommented_sublist source).filterMap ofByte?
    exact hsublist.eq_of_length (by omega)

end ByteTape.Token
