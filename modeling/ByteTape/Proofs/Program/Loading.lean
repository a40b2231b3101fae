/-
What comes of loading a source: a program of operations alone, or an error that lies in the text,
a byte that strict reading refuses or a bracket without a partner.
-/
import ByteTape.Proofs.Program.Spelling

namespace ByteTape

namespace Token

theorem scan_error {source : List UInt8} {offset : Nat} {inComment : Bool} {found : List Token}
    {e : Error} (h : scan offset inComment found source = .error e) :
    ∃ b o, e = .unexpectedByte b o := by
  induction source generalizing offset inComment found with
  | nil => cases h
  | cons b rest ih =>
    unfold scan at h
    split at h
    · exact ih h
    · split at h
      · exact ih h
      · split at h
        · exact ih h
        · split at h
          · exact ih h
          · cases h
            exact ⟨b, offset, rfl⟩

end Token

namespace Program

theorem load_result (isStrict : Bool) (source : List UInt8) :
    (load isStrict source).result = (Token.lex isStrict source).bind ofTokens := by
  unfold load Token.load loadTokens
  cases Token.lex isStrict source with
  | error e => rfl
  | ok ts => cases hts : ofTokens ts <;> simp [Except.bind, hts]

theorem loadTokens_of_error {ts : List Token} {e : Error} (h : ofTokens ts = .error e) :
    loadTokens ts = ⟨.error e, []⟩ := by
  simp only [loadTokens, h]

theorem loadTokens_of_ok {ts : List Token} {p : Program} (h : ofTokens ts = .ok p) :
    loadTokens ts = ⟨.ok p, [.parsed p.length]⟩ := by
  simp only [loadTokens, h]

/-- A source that cannot be cut into tokens leaves no record. -/
theorem load_of_lex_error {isStrict : Bool} {source : List UInt8} {e : Error}
    (h : Token.lex isStrict source = .error e) : load isStrict source = ⟨.error e, []⟩ := by
  simp only [load, Token.load, h]

/-- Once a source has been cut into tokens, the reading shows in the first record alone. -/
theorem load_of_lex {isStrict : Bool} {source : List UInt8} {ts : List Token}
    (h : Token.lex isStrict source = .ok ts) :
    load isStrict source = ⟨(loadTokens ts).result,
      .lexed ts.length source.length isStrict :: (loadTokens ts).log⟩ := by
  simp only [load, Token.load, h, List.cons_append, List.nil_append]

theorem isSyntax_of_ofTokens {ts : List Token} {e : Error} (h : ofTokens ts = .error e) :
    e.isSyntax := by
  have hverdict := verdict ts
  rw [h] at hverdict
  cases hverdict <;> rfl

/-- An error of loading lies in the text. -/
theorem isSyntax_of_load {isStrict : Bool} {source : List UInt8} {e : Error}
    (h : (load isStrict source).result = .error e) : e.isSyntax := by
  rw [load_result] at h
  cases hlex : Token.lex isStrict source with
  | error e' =>
    rw [hlex] at h
    cases h
    cases isStrict with
    | false => cases hlex
    | true =>
      obtain ⟨b, o, rfl⟩ := Token.scan_error hlex
      rfl
  | ok ts =>
    rw [hlex] at h
    exact isSyntax_of_ofTokens h

end Program

end ByteTape
