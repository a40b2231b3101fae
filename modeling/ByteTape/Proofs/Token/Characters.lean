/-
Reading a text by its characters or by its bytes comes to the same. Every byte of a character that is
not ASCII is 128 or more, so that none of them is a symbol, a blank, a slash or a line break. Within a
comment such a character is passed over byte by byte, and outside one it is refused at its first byte;
so strict reading goes over the text as it would over the lead bytes of the characters alone, and only
the offset at which it refuses a character counts all the bytes before it.
-/
import ByteTape.CommandLine.Invocation
import ByteTape.Proofs.Token.Comments

namespace ByteTape

namespace Text

/-! ## Lead bytes -/

/-- The first byte of a character. -/
def lead (c : Char) : UInt8 := (encodeChar c).headD 0

theorem encodeChar_of_lt {c : Char} (h : c.toNat < 128) : encodeChar c = [UInt8.ofNat c.toNat] := by
  have hval : c.val.toNat ≤ 127 := Nat.le_of_lt_succ h
  exact if_pos hval

/-- A character that is not ASCII takes several bytes, each of them 128 or more. -/
theorem encodeChar_of_le {c : Char} (h : 128 ≤ c.toNat) : ∃ b more, encodeChar c = b :: more ∧
    128 ≤ b.toNat ∧ ∀ x ∈ more, 128 ≤ x.toNat := by
  have hval : ¬ c.val.toNat ≤ 127 := Nat.not_le_of_lt h
  unfold encodeChar String.utf8EncodeChar
  dsimp only
  rw [if_neg hval]
  split
  · refine ⟨_, _, rfl, ?_, ?_⟩ <;> simp <;> omega
  · split
    · refine ⟨_, _, rfl, ?_, ?_⟩ <;> simp <;> omega
    · refine ⟨_, _, rfl, ?_, ?_⟩ <;> simp <;> omega

theorem encodeChar_ne_nil (c : Char) : encodeChar c ≠ [] := String.utf8EncodeChar_ne_nil

theorem encodeChar_eq_cons (c : Char) : ∃ more, encodeChar c = lead c :: more := by
  obtain ⟨b, more, h⟩ := List.exists_cons_of_ne_nil (encodeChar_ne_nil c)
  exact ⟨more, by rw [lead, h]; rfl⟩

theorem lead_mem_encodeChar (c : Char) : lead c ∈ encodeChar c := by
  obtain ⟨more, h⟩ := encodeChar_eq_cons c
  rw [h]
  exact List.mem_cons_self

/-- A lead byte below 128 is all of its character. -/
theorem encodeChar_of_lead_lt {c : Char} (h : (lead c).toNat < 128) : encodeChar c = [lead c] := by
  by_cases hc : c.toNat < 128
  · rw [lead, encodeChar_of_lt hc]
    rfl
  · obtain ⟨b, more, hencode, hb, -⟩ := encodeChar_of_le (Nat.le_of_not_lt hc)
    rw [lead, hencode] at h
    exact absurd h (Nat.not_lt_of_le hb)

/-- Where a lead byte is not below 128, neither is any other byte of its character. -/
theorem le_of_mem_encodeChar {c : Char} (h : 128 ≤ (lead c).toNat) {b : UInt8}
    (hb : b ∈ encodeChar c) : 128 ≤ b.toNat := by
  by_cases hc : c.toNat < 128
  · rw [encodeChar_of_lt hc, List.mem_singleton] at hb
    rw [lead, encodeChar_of_lt hc] at h
    exact hb ▸ h
  · obtain ⟨b', more, hencode, hb', hmore⟩ := encodeChar_of_le (Nat.le_of_not_lt hc)
    rw [hencode, List.mem_cons] at hb
    rcases hb with rfl | hb
    · exact hb'
    · exact hmore b hb

/-- A character whose lead byte is ASCII is the one of that number. -/
theorem lead_eq_iff {c : Char} {b : UInt8} (hb : b.toNat < 128) :
    lead c = b ↔ c.toNat = b.toNat := by
  by_cases hc : c.toNat < 128
  · rw [lead, encodeChar_of_lt hc, List.headD_cons, ← UInt8.toNat_inj, UInt8.toNat_ofNat']
    omega
  · obtain ⟨b', more, hencode, hb', -⟩ := encodeChar_of_le (Nat.le_of_not_lt hc)
    rw [lead, hencode, List.headD_cons, ← UInt8.toNat_inj]
    omega

theorem head?_encode (text : List Char) :
    (text.flatMap encodeChar).head? = (text.map lead).head? := by
  cases text with
  | nil => rfl
  | cons c rest =>
    obtain ⟨more, h⟩ := encodeChar_eq_cons c
    rw [List.flatMap_cons, h]
    rfl

theorem byteLength_append (front text : List Char) :
    byteLength (front ++ text) = byteLength front + byteLength text := by
  simp [byteLength]

theorem byteLength_singleton (c : Char) : byteLength [c] = (encodeChar c).length := by
  simp [byteLength]

end Text

namespace Token

open Text

/-! ## Characters and their lead bytes -/

theorem byte_lt (t : Token) : t.byte.toNat < 128 := by
  cases t with
  | op o => cases o <;> decide
  | loopBegin | loopEnd => decide

/-- A character is the symbol of a token exactly when its lead byte is the token's byte. -/
theorem ofByte?_lead (c : Char) : ofByte? (lead c) = ofSymbol? c := by
  ext t
  rw [ofByte?_eq_some_iff, ofSymbol?_eq_some_iff, lead_eq_iff (byte_lt t), toNat_byte,
    Char.toNat_inj]

theorem lead_eq_newline_iff {c : Char} : lead c = newline ↔ c = '\n' := by
  rw [lead_eq_iff (by decide), ← Char.toNat_inj]
  rfl

theorem lead_eq_slash_iff {c : Char} : lead c = slash ↔ c = '/' := by
  rw [lead_eq_iff (by decide), ← Char.toNat_inj]
  rfl

theorem isBlank_lead (c : Char) : isBlank (lead c) = blanks.contains c := by
  rw [Bool.eq_iff_iff, isBlank_iff, List.contains_iff_mem]
  simp (disch := decide) only [blanks, List.mem_cons, List.not_mem_nil, or_false, lead_eq_iff,
    ← Char.toNat_inj]
  rfl

theorem isPermitted_lead (c : Char) : isPermitted (lead c) = isPermittedChar c := by
  rw [isPermitted, isPermittedChar, ofByte?_lead, isBlank_lead]

/-- A byte of 128 or more means nothing. -/
theorem ofByte?_of_le {b : UInt8} (h : 128 ≤ b.toNat) : ofByte? b = none := by
  rw [Option.eq_none_iff_forall_ne_some]
  intro t ht
  have hlt := byte_lt t
  rw [← ofByte?_eq_some_iff.1 ht] at hlt
  omega

theorem isBlank_of_le {b : UInt8} (h : 128 ≤ b.toNat) : isBlank b = false := by
  simp only [isBlank, decide_eq_false_iff_not, UInt8.le_iff_toNat_le, ← UInt8.toNat_inj,
    UInt8.reduceToNat]
  omega

/-! ## Permissive reading -/

theorem permissive_encode (text : String) :
    permissive (encode text) = text.toList.filterMap ofSymbol? := by
  have hchar : ∀ c : Char, (encodeChar c).filterMap ofByte? = (ofSymbol? c).toList := by
    intro c
    by_cases hc : (lead c).toNat < 128
    · rw [encodeChar_of_lead_lt hc, ← ofByte?_lead]
      cases h : ofByte? (lead c) <;> simp [h]
    · have hle := Nat.le_of_not_lt hc
      rw [← ofByte?_lead, ofByte?_of_le hle, Option.toList_none, List.filterMap_eq_nil_iff]
      exact fun b hb => ofByte?_of_le (le_of_mem_encodeChar hle hb)
  rw [permissive, encode, List.filterMap_flatMap, List.filterMap_eq_flatMap_toList]
  exact List.flatMap_congr fun c _ => hchar c

/-! ## Strict reading -/

/-- An error at a character, at the byte at which the character begins. -/
def atByte (text : List Char) : Error → Error
  | .unexpectedByte b i => .unexpectedByte b (byteLength (text.take i))
  | e => e

/-- Within a comment, bytes are passed over up to the line break. -/
theorem scan_comment {bytes : List UInt8} (h : ∀ b ∈ bytes, b ≠ newline) (offset : Nat)
    (found : List Token) (rest : List UInt8) :
    scan offset true found (bytes ++ rest) = scan (offset + bytes.length) true found rest := by
  induction bytes generalizing offset with
  | nil => rfl
  | cons b bytes ih =>
    obtain ⟨hb, hbytes⟩ := List.forall_mem_cons.1 h
    have hnext : (b != newline) = true := bne_iff_ne.2 hb
    rw [List.cons_append, scan, if_pos rfl, hnext, ih hbytes, List.length_cons, Nat.add_right_comm]
    rfl

/-- A byte that means nothing is refused outside comments. -/
theorem scan_of_le {b : UInt8} (h : 128 ≤ b.toNat) (offset : Nat) (found : List Token)
    (rest : List UInt8) :
    scan offset false found (b :: rest) = .error (.unexpectedByte b offset) := by
  have hslash : ¬ (b = slash ∧ rest.head? = some slash) := by
    rintro ⟨rfl, -⟩
    exact absurd h (by decide)
  simp only [scan, Bool.false_eq_true, if_false, ofByte?_of_le h, if_neg hslash, isBlank_of_le h]

theorem atByte_length (front : List Char) (rest : List Char) (b : UInt8) :
    atByte (front ++ rest) (.unexpectedByte b front.length) =
      .unexpectedByte b (byteLength front) := by
  rw [atByte, List.take_left]

/-- From any character on, the scan goes over the bytes of a text as over its lead bytes alone, but
the offset of what it refuses counts all bytes before it. -/
theorem scan_encode (front text : List Char) (inComment : Bool) (found : List Token) :
    scan (byteLength front) inComment found (text.flatMap encodeChar) =
      (scan front.length inComment found (text.map lead)).mapError (atByte (front ++ text)) := by
  induction text generalizing front inComment found with
  | nil => cases inComment <;> rfl
  | cons c rest ih =>
    -- what comes next begins behind the character, on both sides
    have hnext : ∀ inComment found,
        scan (byteLength front + (encodeChar c).length) inComment found (rest.flatMap encodeChar) =
          (scan (front.length + 1) inComment found (rest.map lead)).mapError
            (atByte (front ++ c :: rest)) := by
      intro inComment found
      have hbehind := ih (front ++ [c]) inComment found
      rwa [byteLength_append, byteLength_singleton, List.length_append, List.length_singleton,
        List.append_assoc, List.singleton_append] at hbehind
    rw [List.flatMap_cons, List.map_cons]
    by_cases hc : (lead c).toNat < 128
    · rw [encodeChar_of_lead_lt hc, List.length_singleton] at hnext
      rw [encodeChar_of_lead_lt hc, List.singleton_append, scan, scan, head?_encode]
      cases inComment with
      | true => exact hnext _ _
      | false =>
        simp only [Bool.false_eq_true, if_false]
        cases ofByte? (lead c) with
        | some t => exact hnext _ _
        | none =>
          by_cases hpair : lead c = slash ∧ (rest.map lead).head? = some slash
          · simp only [if_pos hpair]
            exact hnext _ _
          · simp only [if_neg hpair]
            by_cases hblank : isBlank (lead c) = true
            · simp only [if_pos hblank]
              exact hnext _ _
            · simp only [if_neg hblank]
              exact congrArg Except.error (atByte_length front _ _).symm
    · have hle := Nat.le_of_not_lt hc
      cases inComment with
      | true =>
        have hline : ∀ b ∈ encodeChar c, b ≠ newline := by
          rintro b hb rfl
          exact absurd (le_of_mem_encodeChar hle hb) (by decide)
        have hlead : (lead c != newline) = true := bne_iff_ne.2 (hline _ (lead_mem_encodeChar c))
        rw [scan_comment hline, scan, if_pos rfl, hlead]
        exact hnext _ _
      | false =>
        obtain ⟨more, hmore⟩ := encodeChar_eq_cons c
        rw [hmore, List.cons_append, scan_of_le hle, scan_of_le hle]
        exact congrArg Except.error (atByte_length front _ _).symm

/-- Strict reading of a text is that of its lead bytes, but for the offset of what is refused. -/
theorem strict_encode (text : String) :
    strict (encode text) = (strict (text.toList.map lead)).mapError (atByte text.toList) :=
  scan_encode [] text.toList false []

/-! ## The characters that are kept -/

/-- The lead bytes that are kept are those of the characters that are kept. -/
theorem kept_lead (text : List Char) :
    kept (text.map lead) = (keptChars text).map (Prod.map lead id) := by
  have hnewline : (fun k : Char × Nat => (Prod.map lead id k).1 == newline) = (·.1 == '\n') := by
    funext k
    rw [Bool.eq_iff_iff, beq_iff_eq, beq_iff_eq]
    exact lead_eq_newline_iff
  have hslash : (fun k : Char × Nat => (Prod.map lead id k).1 == slash) = (·.1 == '/') := by
    funext k
    rw [Bool.eq_iff_iff, beq_iff_eq, beq_iff_eq]
    exact lead_eq_slash_iff
  rw [kept, keptChars, List.zipIdx_map, Text.pieces_map, hnewline, List.flatMap_map, List.map_flatMap]
  simp only [code_map, hslash]

theorem getElem?_of_mem_keptChars {text : List Char} {c : Char} {i : Nat}
    (h : (c, i) ∈ keptChars text) : text[i]? = some c := by
  have hkept : (keptChars text).Sublist text.zipIdx := by
    refine (flatMap_code_sublist _ _).trans ?_
    rw [Text.flatten_pieces]
    exact List.filter_sublist
  exact List.mk_mem_zipIdx_iff_getElem?.1 (hkept.subset h)

/-- The first lead byte kept that is not permitted is that of the first such character. -/
theorem find?_kept_lead (text : List Char) :
    (kept (text.map lead)).find? (fun k => !isPermitted k.1) =
      ((keptChars text).find? fun k => !isPermittedChar k.1).map (Prod.map lead id) := by
  rw [kept_lead, List.find?_map]
  simp only [Function.comp_def, Prod.map_fst, isPermitted_lead]

/-- Of the characters kept that are not permitted, the first in the list is the first in the text. -/
theorem place_le_of_find? {text : List Char} {k l : Char × Nat}
    (hk : (keptChars text).find? (fun k => !isPermittedChar k.1) = some k) (hl : l ∈ keptChars text)
    (hbad : ¬ isPermittedChar l.1) : k.2 ≤ l.2 := by
  have hfind := find?_kept_lead text
  rw [hk] at hfind
  have hlead : Prod.map lead id l ∈ kept (text.map lead) := by
    rw [kept_lead]
    exact List.mem_map_of_mem hl
  exact offset_le_of_find? hfind hlead (by rwa [Prod.map_fst, isPermitted_lead])

/-- Strict reading of a text, by its characters: the first one kept that is not permitted is refused,
at the byte at which it begins. -/
theorem strict_encode_eq (text : String) :
    strict (encode text) =
      match (keptChars text.toList).find? (fun k => !isPermittedChar k.1) with
      | some (c, i) => .error (.unexpectedByte (lead c) (byteLength (text.toList.take i)))
      | none => .ok ((keptChars text.toList).filterMap fun k => ofSymbol? k.1) := by
  rw [strict_encode, strict_eq_ofLines, ofLines, find?_kept_lead]
  cases (keptChars text.toList).find? fun k => !isPermittedChar k.1 with
  | some k => rfl
  | none =>
    rw [kept_lead, List.filterMap_map]
    simp only [Function.comp_def, Prod.map_fst, ofByte?_lead]
    rfl

/-- A text that is given as code is read as the bytes that encode it, and so as its characters say.
Permissive reading gives its symbols, in order. Strict reading looks, line by line, at the characters
before the first two slashes in a row. If each of them is a symbol or a blank, it gives the symbols
among them, in order; or else it refuses the first one in the text that is neither, by the first byte
of that character and the number of bytes that encode the text before it. -/
theorem code_reads_as_its_characters (text : String) :
    (∀ files st, (CommandLine.CodeOrigin.code (some text)).fetch files st = .ok (encode text)) ∧
    lex false (encode text) = .ok (text.toList.filterMap ofSymbol?) ∧
    ((∀ k ∈ keptChars text.toList, isPermittedChar k.1) ∧
        lex true (encode text) = .ok ((keptChars text.toList).filterMap fun k => ofSymbol? k.1) ∨
      ∃ before c behind b more, text.toList = before ++ c :: behind ∧
        (c, before.length) ∈ keptChars text.toList ∧ ¬ isPermittedChar c ∧
        (∀ k ∈ keptChars text.toList, ¬ isPermittedChar k.1 → before.length ≤ k.2) ∧
        encodeChar c = b :: more ∧
        lex true (encode text) = .error (.unexpectedByte b (byteLength before))) := by
  refine ⟨fun _ _ => rfl, congrArg Except.ok (permissive_encode text), ?_⟩
  have hlex : lex true (encode text) = _ := strict_encode_eq text
  rw [hlex]
  cases hbad : (keptChars text.toList).find? fun k => !isPermittedChar k.1 with
  | none => exact .inl ⟨by simpa using hbad, rfl⟩
  | some k =>
    obtain ⟨c, i⟩ := k
    have hmem := List.mem_of_find?_eq_some hbad
    have hrefused := List.find?_some hbad
    obtain ⟨hi, hc⟩ := List.getElem?_eq_some_iff.1 (getElem?_of_mem_keptChars hmem)
    have hlength : (text.toList.take i).length = i := List.length_take_of_le hi.le
    obtain ⟨more, hmore⟩ := encodeChar_eq_cons c
    refine .inr ⟨text.toList.take i, c, text.toList.drop (i + 1), lead c, more, ?_, ?_, ?_, ?_, hmore,
      rfl⟩
    · rw [← hc, List.getElem_cons_drop, List.take_append_drop]
    · rwa [hlength]
    · simpa using hrefused
    · rw [hlength]
      exact fun l hl hbad' => place_le_of_find? hbad hl hbad'

/-- Within a comment any character may stand; outside one a character of two bytes is refused by the
first of them, where it begins. -/
example : lex true (encode "+ // é\n-é") = .error (.unexpectedByte 0xc3 9) := by
  decide

end Token

end ByteTape
