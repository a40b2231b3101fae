/-
The ways to hand over a program. Arguments are taken in one after the other, so what stands before
the program decides about the settings and nothing else, and the program comes last: as a text
attached to its flag, as the argument behind the flag, or in a file. Whichever of the three it is,
the same bytes are run; unless the text reads as something else than a plain word where one is
wanted, which is a usage error. In the early edition the separator attached to the flag is no value.
-/
import ByteTape.Proofs.CommandLine.Outcome

namespace ByteTape.CommandLine

variable {d : Edition}

/-! ## Arguments behind arguments -/

theorem toList_eq_separator {s : String} : s.toList = separator ↔ s = "--" := by
  have hseparator : separator = "--".toList := rfl
  rw [hseparator, String.toList_inj]

/-- Readings of arguments that come one after the other, if no separator is among the first. -/
theorem readWords_append {first : List Word} {xs : List (Word × Reading)}
    (hseparator : separator ∉ first) (h : readWords d first = .ok xs) (more : List Word) :
    readWords d (first ++ more) = (readWords d more).map (xs ++ ·) := by
  induction first generalizing xs with
  | nil =>
    cases h
    rw [List.nil_append]
    cases readWords d more <;> rfl
  | cons w rest ih =>
    obtain ⟨hw, hrest⟩ : w ≠ separator ∧ separator ∉ rest := by
      simpa [eq_comm] using hseparator
    rw [readWords, if_neg hw] at h
    rw [List.cons_append, readWords, if_neg hw]
    cases hread : readWord d w with
    | error e => rw [hread] at h; cases h
    | ok x =>
      cases hreadings : readWords d rest with
      | error e => rw [hread, hreadings] at h; cases h
      | ok ys =>
        rw [hread, hreadings] at h
        cases h
        simp only [ih hrest hreadings]
        cases readWords d more <;> rfl

theorem Taken.nextAll_append {t t' : Taken} {xs : List (Word × Reading)} (h : t.nextAll d xs = .ok t')
    (ys : List (Word × Reading)) : t.nextAll d (xs ++ ys) = t'.nextAll d ys := by
  induction xs generalizing t with
  | nil =>
    cases h
    rfl
  | cons x rest ih =>
    obtain ⟨w, x⟩ := x
    rw [nextAll] at h
    rw [List.cons_append, nextAll]
    cases hnext : t.next d w x with
    | error s => rw [hnext] at h; cases h
    | ok t₁ =>
      rw [hnext] at h
      exact ih h

/-- Parses arguments where others have been taken in before. -/
def parseFrom (d : Edition) (t : Taken) (arguments : List String) : Except Stop Options :=
  match readWords d (arguments.map String.toList) with
  | .error e => .error (.usage e)
  | .ok xs => match t.nextAll d xs with
    | .error s => .error s
    | .ok t => t.finish

/-- Arguments that ask for settings, and for records to be shown or not, and for nothing else. -/
structure Asks (d : Edition) (arguments : List String) (settings : Settings.Request)
    (verbose : Bool) : Prop where
  noSeparator : "--" ∉ arguments
  taken : ∃ xs, readWords d (arguments.map String.toList) = .ok xs ∧
    Taken.nextAll d {} xs = .ok { settings, verbose }

section

variable {before : List String} {q q' : Settings.Request} {verbose verbose' : Bool}

theorem Asks.separator_not_mem (h : Asks d before q verbose) :
    separator ∉ before.map String.toList := by
  intro hmem
  obtain ⟨s, hs, hseparator⟩ := List.mem_map.1 hmem
  exact h.noSeparator (toList_eq_separator.1 hseparator ▸ hs)

/-- Behind arguments that ask for settings the others are taken in with these settings. -/
theorem Asks.parse_append (h : Asks d before q verbose) (arguments : List String) :
    parse d (before ++ arguments) = parseFrom d { settings := q, verbose } arguments := by
  obtain ⟨xs, hread, htaken⟩ := h.taken
  have hparse : parse d (before ++ arguments) = parseFrom d {} (before ++ arguments) := rfl
  rw [hparse, parseFrom, parseFrom, List.map_append, readWords_append h.separator_not_mem hread]
  cases readWords d (arguments.map String.toList) with
  | error e => rfl
  | ok ys => simp only [Except.map, Taken.nextAll_append htaken]

/-! ## Asking for settings -/

theorem Asks.append (h : Asks d before q verbose) {more : List String} (hseparator : "--" ∉ more)
    (hmore : ∃ ys, readWords d (more.map String.toList) = .ok ys ∧
      Taken.nextAll d { settings := q, verbose } ys =
        .ok { settings := q', verbose := verbose' }) :
    Asks d (before ++ more) q' verbose' := by
  obtain ⟨xs, hxs, hbefore⟩ := h.taken
  obtain ⟨ys, hys, hmore⟩ := hmore
  refine ⟨by simp [h.noSeparator, hseparator], xs ++ ys, ?_, ?_⟩
  · rw [List.map_append, readWords_append h.separator_not_mem hxs, hys]
    rfl
  · rw [Taken.nextAll_append hbefore, hmore]

/-- Without arguments the settings are the default ones. -/
theorem asks_nil : Asks d [] {} false := ⟨nofun, [], rfl, rfl⟩

theorem Asks.strict (h : Asks d before q verbose) :
    Asks d (before ++ ["--strict"]) { q with strict := true } verbose :=
  h.append (by decide) ⟨_, rfl, rfl⟩

theorem Asks.verbosely (h : Asks d before q verbose) {flag : String}
    (hflag : flag = "-v" ∨ flag = "--verbose") : Asks d (before ++ [flag]) q true := by
  rcases hflag with rfl | rfl <;> exact h.append (by decide) ⟨_, rfl, rfl⟩

/-- The wrap is asked for in one argument or in two. -/
theorem Asks.wrap (h : Asks d before q verbose) {w : Word} (hw : w ∈ Opt.wrap.choices) :
    Asks d (before ++ ["--pointer-wrap=" ++ String.ofList w])
        { q with wrap := .text (String.ofList w) } verbose ∧
      Asks d (before ++ ["--pointer-wrap", String.ofList w])
        { q with wrap := .text (String.ofList w) } verbose := by
  simp only [Opt.choices, List.mem_cons, List.not_mem_nil, or_false] at hw
  rcases hw with rfl | rfl <;> cases d <;>
    exact ⟨h.append (by decide) ⟨_, rfl, rfl⟩, h.append (by decide) ⟨_, rfl, rfl⟩⟩

/-- So is what a read does when the input is exhausted. -/
theorem Asks.eof (h : Asks d before q verbose) {w : Word} (hw : w ∈ Opt.eof.choices) :
    Asks d (before ++ ["--eof=" ++ String.ofList w])
        { q with onEof := .text (String.ofList w) } verbose ∧
      Asks d (before ++ ["--eof", String.ofList w])
        { q with onEof := .text (String.ofList w) } verbose := by
  simp only [Opt.choices, List.mem_cons, List.not_mem_nil, or_false] at hw
  rcases hw with rfl | rfl | rfl <;> cases d <;>
    exact ⟨h.append (by decide) ⟨_, rfl, rfl⟩, h.append (by decide) ⟨_, rfl, rfl⟩⟩

/-! ## The program behind the settings -/

/-- Only what begins with a dash may be a flag, or the separator. -/
theorem readWords_plain {w : Word} (hw : w.head? ≠ some '-') :
    readWords d [w] = .ok [(w, .plain)] := by
  have hseparator : w ≠ separator := by
    rintro rfl
    exact hw rfl
  have hread : readWord d w = .ok .plain := by
    unfold readWord
    split
    · exact absurd rfl hw
    · rfl
  rw [readWords, if_neg hseparator, hread]
  rfl

theorem readWords_singleton (w : Word) :
    (∃ x, readWords d [w] = .ok [(w, x)]) ∨ ∃ e, readWords d [w] = .error e := by
  rw [readWords]
  split
  · exact .inl ⟨.separator, rfl⟩
  · cases readWord d w with
    | error e => exact .inr ⟨e, rfl⟩
    | ok x => exact .inl ⟨x, rfl⟩

theorem Asks.parse_path (h : Asks d before q verbose) {path : String}
    (hpath : path.toList.head? ≠ some '-') :
    parse d (before ++ [path]) = .ok ⟨.file path, q, verbose⟩ := by
  have hread : readWords d ([path].map String.toList) = .ok [(path.toList, .plain)] :=
    readWords_plain hpath
  have htaken : Taken.nextAll d { settings := q, verbose } [(path.toList, .plain)] =
      .ok { settings := q, verbose, file := some path.toList, afterFile := true } := rfl
  rw [h.parse_append, parseFrom, hread]
  simp only [htaken, Taken.finish, String.ofList_toList]

/-- Every text is a value, but for the separator in the early edition. -/
theorem valueOf_toList {text : String} (htext : d = .early → text ≠ "--") :
    valueOf d text.toList = some text.toList := by
  cases d with
  | early => exact if_neg (mt toList_eq_separator.1 (htext rfl))
  | late => rfl

/-- A text attached to its flag is the code, whatever it is, as far as it is a value. -/
theorem Asks.parse_attached (h : Asks d before q verbose) (text : String) :
    parse d (before ++ ["--code=" ++ text]) =
      .ok ⟨.code ((valueOf d text.toList).map String.ofList), q, verbose⟩ := by
  have hword : ("--code=" ++ text).toList =
      '-' :: '-' :: 'c' :: 'o' :: 'd' :: 'e' :: '=' :: text.toList := String.toList_append
  have hread : readWords d (["--code=" ++ text].map String.toList) =
      .ok [(("--code=" ++ text).toList, .flag .code true (some text.toList))] := by
    rw [List.map_singleton, hword]
    rfl
  have htaken : Taken.nextAll d { settings := q, verbose }
      [(("--code=" ++ text).toList, .flag .code true (some text.toList))] =
        .ok { settings := q, verbose, code := some (valueOf d text.toList) } := rfl
  rw [h.parse_append, parseFrom, hread]
  simp only [htaken, Taken.finish]

theorem readWords_code_flag (w : Word) : readWords d [['-', 'c'], w] =
    (readWords d [w]).map ((['-', 'c'], .flag .code false none) :: ·) := rfl

/-- A text behind its flag is the code if it reads as a plain word, and else is missing there. -/
theorem Asks.parse_behind (h : Asks d before q verbose) {text : String} {x : Reading}
    (hx : readWords d [text.toList] = .ok [(text.toList, x)]) :
    parse d (before ++ ["-c", text]) = if x = .plain then .ok ⟨.code (some text), q, verbose⟩
      else .error (.usage (.valueMissing .code)) := by
  have hread : readWords d (["-c", text].map String.toList) =
      .ok [(['-', 'c'], .flag .code false none), (text.toList, x)] :=
    (readWords_code_flag _).trans (by rw [hx]; rfl)
  have htaken : Taken.nextAll d { settings := q, verbose }
      [(['-', 'c'], .flag .code false none), (text.toList, x)] =
        if x = .plain then .ok { settings := q, verbose, code := some (some text.toList) }
        else .error (.usage (.valueMissing .code)) := by
    -- any reading but that of a plain word is refused in the same way
    cases x <;> rfl
  rw [h.parse_append, parseFrom, hread]
  simp only [htaken]
  by_cases hplain : x = .plain <;> simp [hplain, Taken.finish]

/-- A text behind its flag is the code, or is refused there. -/
theorem Asks.parse_separate (h : Asks d before q verbose) (text : String) :
    parse d (before ++ ["-c", text]) = .ok ⟨.code (some text), q, verbose⟩ ∨
      text.toList.head? = some '-' ∧
        ∃ e, parse d (before ++ ["-c", text]) = .error (.usage e) := by
  by_cases hdash : text.toList.head? = some '-'
  · obtain ⟨x, hx⟩ | ⟨e, he⟩ := readWords_singleton text.toList
    · rw [h.parse_behind hx]
      split
      · exact .inl rfl
      · exact .inr ⟨hdash, _, rfl⟩
    · have hread : readWords d (["-c", text].map String.toList) = .error e :=
        (readWords_code_flag _).trans (by rw [he]; rfl)
      refine .inr ⟨hdash, e, ?_⟩
      rw [h.parse_append, parseFrom, hread]
  · exact .inl (h.parse_behind (readWords_plain hdash))

end

/-! ## Calls -/

/-- A call whose arguments are wrong: it says so, and touches no stream. -/
structure CallReport.OfUsageError (report : CallReport) (st : Streams) : Prop where
  ending : report.ending = .exited 2
  stderr : ∃ e : UsageError, report.stderr = [.text e.report]
  streams : report.streams = st

section

variable {fuel : Nat} {mode : Mode} {releaseFault : Option Fault} {turning : TurningAway}
  {files : Files} {st : Streams} {arguments arguments' : List String} {o o' : Options}

/-- Where the program comes from does not matter, if it is the same. -/
theorem call_eq_of_fetch (hparse : parse d arguments = .ok o) (hparse' : parse d arguments' = .ok o')
    (hfetch : o.origin.fetch files st = o'.origin.fetch files st)
    (hsettings : o.settings = o'.settings) (hverbose : o.verbose = o'.verbose) :
    call fuel mode releaseFault files st arguments d turning =
      call fuel mode releaseFault files st arguments' d turning := by
  simp only [call, hparse, hparse', runOptions, Options.prepare, Options.conclude, hfetch, hsettings,
    hverbose]

theorem call_of_lacking_code (hparse : parse d arguments = .ok o) (horigin : o.origin = .code none) :
    call fuel mode releaseFault files st arguments d turning =
      some (.ofError st .codeNotText) := by
  simp only [call, hparse, runOptions, Options.prepare, horigin, CodeOrigin.fetch]
  cases mode <;> rfl

theorem call_of_usage {e : UsageError} (hparse : parse d arguments = .error (.usage e)) :
    call fuel mode releaseFault files st arguments d turning = some (.ofStop st (.usage e)) := by
  simp only [call, hparse]
  cases mode <;> rfl

end

/-- In either edition, behind arguments that ask for settings, a text attached to its flag amounts to the
same call as a file that holds the text; but if in the early edition it is the separator, which is no
value there, an error says that there is no code, and no stream is touched. A text behind its flag
amounts to the same call too, or to a usage error, and that only if it begins with a dash. -/
theorem ways_to_hand_over_agree {before : List String} {q : Settings.Request} {verbose : Bool}
    {text path : String} {files : Files} (hbefore : Asks d before q verbose)
    (hpath : path.toList.head? ≠ some '-') (hfile : files path = .ok (Text.encode text))
    (mode : Mode) (releaseFault : Option Fault) (turning : TurningAway) (st : Streams) :
    ((d = .early → text ≠ "--") → ∀ fuel,
      call fuel mode releaseFault files st (before ++ ["--code=" ++ text]) d turning =
        call fuel mode releaseFault files st (before ++ [path]) d turning) ∧
    (d = .early → text = "--" → ∃ report : CallReport, report.OfLacking st .codeNotText ∧
      ∀ fuel, call fuel mode releaseFault files st (before ++ ["--code=" ++ text]) d turning =
        some report) ∧
    ((∀ fuel, call fuel mode releaseFault files st (before ++ ["-c", text]) d turning =
        call fuel mode releaseFault files st (before ++ [path]) d turning) ∨
      text.toList.head? = some '-' ∧ ∃ report : CallReport, report.OfUsageError st ∧
        ∀ fuel, call fuel mode releaseFault files st (before ++ ["-c", text]) d turning =
          some report) := by
  have hparse := hbefore.parse_path hpath
  have hattached := hbefore.parse_attached text
  have hfetch :
      (CodeOrigin.code (some text)).fetch files st = (CodeOrigin.file path).fetch files st := by
    rw [CodeOrigin.fetch, CodeOrigin.fetch, hfile]
  refine ⟨fun htext fuel => ?_, ?_, ?_⟩
  · rw [valueOf_toList htext, Option.map_some, String.ofList_toList] at hattached
    exact call_eq_of_fetch hattached hparse hfetch rfl rfl
  · rintro rfl rfl
    exact ⟨_, ⟨rfl, rfl⟩, fun fuel => call_of_lacking_code hattached rfl⟩
  · obtain hseparate | ⟨hdash, e, hseparate⟩ := hbefore.parse_separate text
    · exact .inl fun fuel => call_eq_of_fetch hseparate hparse hfetch rfl rfl
    · exact .inr ⟨hdash, _, ⟨rfl, ⟨e, rfl⟩, rfl⟩, fun fuel => call_of_usage hseparate⟩

/-- Behind a choice for each of the settings, a text whose comment holds spaces, an equals sign and a
flag is handed over in the three ways, and two decrements in two of them. -/
theorem ways_to_hand_over_agree_every_setting :
    let before := ["--strict", "-v", "--pointer-wrap=tape", "--eof", "zero"]
    let files := (Directory.ofEntries
      [("p.bf", some (Text.encode ", // --eof=abort")), ("q.bf", some (Text.encode "--"))]).read
    (∀ fuel, call fuel .script none files {} (before ++ ["--code=" ++ ", // --eof=abort"]) .late =
      call fuel .script none files {} (before ++ ["p.bf"]) .late) ∧
    (∀ fuel, call fuel .script none files {} (before ++ ["-c", ", // --eof=abort"]) .late =
      call fuel .script none files {} (before ++ ["p.bf"]) .late) ∧
    ∀ fuel, call fuel .script none files {} (before ++ ["--code=" ++ "--"]) .late =
      call fuel .script none files {} (before ++ ["q.bf"]) .late := by
  intro before files
  have hverbose : Asks .late ["--strict", "-v"] { strict := true } true :=
    asks_nil.strict.verbosely (.inl rfl)
  have hwrap := hverbose.wrap (by decide : ['t', 'a', 'p', 'e'] ∈ Opt.wrap.choices)
  have hbefore : Asks .late before _ true :=
    (hwrap.1.eof (by decide : ['z', 'e', 'r', 'o'] ∈ Opt.eof.choices)).2
  have hfile : files "p.bf" = .ok (Text.encode ", // --eof=abort") := rfl
  have hfile' : files "q.bf" = .ok (Text.encode "--") := rfl
  obtain ⟨hattached, -, hseparate⟩ :=
    ways_to_hand_over_agree hbefore (by decide) hfile .script none .done {}
  obtain ⟨hattached', -⟩ :=
    ways_to_hand_over_agree hbefore (by decide) hfile' .script none .done {}
  exact ⟨hattached nofun, hseparate.resolve_right fun h => absurd h.1 (by decide),
    hattached' nofun⟩

end ByteTape.CommandLine
