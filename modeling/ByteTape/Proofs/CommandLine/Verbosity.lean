/-
Showing more. An argument that asks for every record to be shown, in front of the others, is taken in
without a trace but for that wish, which nothing reads until the records are shown. So it changes
neither how a call ends nor what happens on its streams, and what it adds to what is shown is records
of the lexer and the parser. The warnings are shown with it and without it, after these records and
before anything is said about the end of the run.
-/
import ByteTape.Proofs.CommandLine.HandingOver
import ByteTape.Proofs.CommandLine.Release
import ByteTape.Proofs.Execution.Warnings

namespace ByteTape.CommandLine

/-! ## Asking for every record -/

/-- What has been taken in, and every record is asked for. -/
def Taken.loud (t : Taken) : Taken := { t with verbose := true }

/-- The same options, but every record is asked for. -/
def Options.loud (o : Options) : Options := { o with verbose := true }

variable {d : Edition}

namespace Taken

variable (t : Taken)

theorem option_loud (o : Opt) (v : Value) : t.loud.option o v = (t.option o v).map loud := by
  obtain ⟨code, file, settings, verbose, wanted, afterFile, leftOver⟩ := t
  cases o with
  | help | version | strict | verbose => rfl
  | code => cases file <;> rfl
  | wrap =>
    simp only [option, loud]
    cases choose .wrap v <;> rfl
  | eof =>
    simp only [option, loud]
    cases choose .eof v <;> rfl

theorem options_loud (given : List (Opt × Value)) :
    t.loud.options given = (t.options given).map loud := by
  induction given generalizing t with
  | nil => rfl
  | cons g rest ih =>
    obtain ⟨o, v⟩ := g
    rw [options, options, option_loud]
    cases t.option o v with
    | error s => rfl
    | ok t₁ => exact ih t₁

theorem plain_loud (w : Word) : t.loud.plain w = (t.plain w).map loud := by
  obtain ⟨code, file, settings, verbose, wanted, afterFile, leftOver⟩ := t
  cases file with
  | some path => rfl
  | none => cases code <;> rfl

theorem flags_loud (k : Cluster) : t.loud.flags k = (t.flags k).map loud := by
  let left : Taken := { t with leftOver := k.leftOver.toList ++ t.leftOver }
  unfold flags
  cases k.wanted with
  | none => exact left.options_loud k.options
  | some o => rfl

/-- The wish to be shown every record is passed on by each argument. -/
theorem next_loud (w : Word) (x : Reading) : t.loud.next d w x = (t.next d w x).map loud := by
  obtain ⟨code, file, settings, verbose, wanted, afterFile, leftOver⟩ := t
  let idle : Taken := { code, file, settings, verbose, leftOver }
  cases wanted with
  | some waiting =>
    cases x with
    | plain => exact idle.options_loud _
    | separator | flag | unknown => rfl
  | none =>
    cases x with
    | plain => exact idle.plain_loud w
    | separator => cases file <;> cases afterFile <;> rfl
    | unknown => rfl
    | flag o closed attached =>
      simp only [next, loud]
      cases spread d o closed attached with
      | error e => rfl
      | ok k => exact idle.flags_loud k

theorem nextAll_loud (words : List (Word × Reading)) :
    t.loud.nextAll d words = (t.nextAll d words).map loud := by
  induction words generalizing t with
  | nil => rfl
  | cons word rest ih =>
    obtain ⟨w, x⟩ := word
    rw [nextAll, nextAll, next_loud]
    cases t.next d w x with
    | error s => rfl
    | ok t₁ => exact ih t₁

theorem finish_loud : t.loud.finish = t.finish.map Options.loud := by
  obtain ⟨code, file, settings, verbose, wanted, afterFile, leftOver⟩ := t
  cases wanted with
  | some waiting => rfl
  | none => cases code <;> cases file <;> cases leftOver <;> rfl

end Taken

theorem parseFrom_loud (t : Taken) (arguments : List String) :
    parseFrom d t.loud arguments = (parseFrom d t arguments).map Options.loud := by
  unfold parseFrom
  cases readWords d (arguments.map String.toList) with
  | error e => rfl
  | ok words =>
    simp only [Taken.nextAll_loud]
    cases t.nextAll d words with
    | error s => rfl
    | ok t₁ => exact t₁.finish_loud

/-- Behind `-v` arguments ask for what they ask for without it, and for every record. -/
theorem parse_verbose (arguments : List String) :
    parse d ("-v" :: arguments) = (parse d arguments).map Options.loud := by
  have hasks : Asks d ["-v"] {} true := asks_nil.verbosely (.inl rfl)
  have hparse : parse d arguments = parseFrom d {} arguments := rfl
  calc parse d ("-v" :: arguments)
      = parseFrom d (Taken.loud {}) arguments := hasks.parse_append arguments
    _ = (parse d arguments).map Options.loud := by rw [parseFrom_loud, hparse]

theorem parse_verbose_of_ok {arguments : List String} {o : Options}
    (h : parse d arguments = .ok o) : parse d ("-v" :: arguments) = .ok o.loud := by
  rw [parse_verbose, h]
  rfl

/-! ## What is shown -/

/-- A record that is for debugging only, which those of the lexer and the parser are. -/
def Diagnostic.isDebug : Diagnostic → Bool
  | .record r => r.level == .debug
  | .text _ => false

theorem shown_eq (verbose : Bool) (r : LogRecord) :
    shown verbose r = (verbose || !(Diagnostic.record r).isDebug) := by
  cases r <;> rfl

/-- What is said about an outcome is no record. -/
theorem isDebug_of_mem_said {outcome : Outcome} {d : Diagnostic}
    (h : d ∈ (Ending.ofOutcome outcome).2) : d.isDebug = false := by
  unfold Ending.ofOutcome at h
  split at h
  · cases h
  · split at h
    · rw [List.mem_singleton.1 h]
      rfl
    · split at h
      · rw [List.mem_singleton.1 h]
        rfl
      · cases h

namespace CallReport

/-- What a call (`report`) and the same call where every record is asked for (`loud`) amount to. They
differ at most in the records that are for debugging only, which the former shows if it has been asked
for every record itself (`verbose`), and not otherwise. -/
structure ShowsLess (verbose : Bool) (report loud : CallReport) : Prop where
  ending : loud.ending = report.ending
  streams : loud.streams = report.streams
  stdout : loud.stdout = report.stdout
  redirected : loud.redirected = report.redirected
  stderr : report.stderr = loud.stderr.filter fun d => verbose || !d.isDebug

variable {verbose : Bool} {report loud : CallReport}

/-- Where no record is shown there is none to be left out. -/
theorem ShowsLess.refl (h : ∀ d ∈ report.stderr, d.isDebug = false) :
    report.ShowsLess verbose report :=
  ⟨rfl, rfl, rfl, rfl, (List.filter_eq_self.2 fun d hd => by simp [h d hd]).symm⟩

theorem ofOutcome_showsLess (verbose : Bool) (outcome : Outcome) (st : Streams) :
    (ofOutcome verbose outcome st).ShowsLess verbose (ofOutcome true outcome st) := by
  refine ⟨rfl, rfl, rfl, rfl, ?_⟩
  have hsaid : ((Ending.ofOutcome outcome).2.filter fun d => verbose || !d.isDebug) =
      (Ending.ofOutcome outcome).2 :=
    List.filter_eq_self.2 fun d hd => by simp [isDebug_of_mem_said hd]
  have hall : shown true = fun _ => true := rfl
  have hshown : shown verbose = (fun d => verbose || !d.isDebug) ∘ Diagnostic.record :=
    funext (shown_eq verbose)
  simp only [ofOutcome, List.filter_append, hsaid, hall, List.filter_true, List.filter_map, hshown]

/-- What comes of a release depends on how the call has ended, and not on what it has shown. -/
theorem ShowsLess.release (h : report.ShowsLess verbose loud) (releaseFault : Option Fault)
    (turning : TurningAway) : (report.release releaseFault turning).ShowsLess verbose
      (loud.release releaseFault turning) := by
  have hends :
      (loud.release releaseFault turning).ending = (report.release releaseFault turning).ending ∧
      (loud.release releaseFault turning).redirected =
        (report.release releaseFault turning).redirected := by
    cases releaseFault with
    | none => exact ⟨h.ending, h.redirected⟩
    | some f =>
      by_cases hf : f.Ordinary
      · obtain ⟨hending, hredirected⟩ := report.release_of_ordinary turning hf
        obtain ⟨hending', hredirected'⟩ := loud.release_of_ordinary turning hf
        refine ⟨by rw [hending', hending, h.ending], Bool.eq_iff_iff.2 ?_⟩
        rw [hredirected', hredirected, h.redirected]
      · obtain ⟨hending, hredirected⟩ := report.release_of_not_ordinary turning hf
        obtain ⟨hending', hredirected'⟩ := loud.release_of_not_ordinary turning hf
        exact ⟨by rw [hending', hending], by rw [hredirected', hredirected, h.redirected]⟩
  exact ⟨hends.1, by simp [h.streams], by simp [h.stdout], hends.2, by simpa using h.stderr⟩

@[simp] theorem asScript_streams (report : CallReport) : report.asScript.streams = report.streams := by
  rw [report.handedOn_asScript.same]

@[simp] theorem asScript_stderr (report : CallReport) : report.asScript.stderr = report.stderr := by
  rw [report.handedOn_asScript.same]

theorem ShowsLess.asScript (h : report.ShowsLess verbose loud) :
    report.asScript.ShowsLess verbose loud.asScript := by
  obtain ⟨_, _, _, _, _⟩ := report
  obtain ⟨ending, streams, stdout, stderr, redirected⟩ := loud
  obtain ⟨rfl, rfl, rfl, rfl, hstderr⟩ := h
  cases ending with
  | returned | exited | raised => exact ⟨rfl, rfl, rfl, rfl, hstderr⟩

end CallReport

/-! ## Calls -/

section

variable {fuel : Nat} {mode : Mode} {releaseFault : Option Fault} {turning : TurningAway}
  {files : Files} {st : Streams} {arguments : List String} {o : Options}

/-- Where there is no source no record is shown. -/
theorem isDebug_of_fetch_error {report : CallReport} (h : o.origin.fetch files st = .error report) :
    ∀ d ∈ report.stderr, d.isDebug = false := by
  obtain ⟨_, _, -, -, rfl⟩ | ⟨_, -, -, rfl⟩ | ⟨-, rfl⟩ := fetch_error_cases h
  · exact List.forall_mem_singleton.2 rfl
  · exact nofun
  · exact nofun

theorem runOptions_showsLess : Option.Rel (CallReport.ShowsLess o.verbose)
    (runOptions fuel mode releaseFault turning files st o)
    (runOptions fuel mode releaseFault turning files st o.loud) := by
  cases hfetch : o.origin.fetch files st with
  | error report =>
    rw [runOptions_of_unfetched hfetch, runOptions_of_unfetched (o := o.loud) hfetch]
    exact .some (.refl (isDebug_of_fetch_error hfetch))
  | ok source =>
    cases hsettings : o.settings.resolve with
    | error e =>
      rw [runOptions_of_unresolved hfetch hsettings,
        runOptions_of_unresolved (o := o.loud) hfetch hsettings]
      exact .some (.refl nofun)
    | ok settings =>
      rw [runOptions_of_prepared hfetch hsettings,
        runOptions_of_prepared (o := o.loud) hfetch hsettings]
      cases interpret fuel settings source st with
      | none => exact .none
      | some x =>
        have hshows := CallReport.ofOutcome_showsLess o.verbose x.1 x.2
        cases mode with
        | handedOver => exact .some hshows
        | standard | script => exact .some (hshows.release releaseFault turning)

theorem call_showsLess (hparse : parse d arguments = .ok o) :
    Option.Rel (CallReport.ShowsLess o.verbose)
      (call fuel mode releaseFault files st arguments d turning)
      (call fuel mode releaseFault files st ("-v" :: arguments) d turning) := by
  have hloud := parse_verbose_of_ok hparse
  have hrel : Option.Rel (CallReport.ShowsLess o.verbose)
      (runOptions fuel mode releaseFault turning files st o)
      (runOptions fuel mode releaseFault turning files st o.loud) := runOptions_showsLess
  simp only [call, hparse, hloud]
  cases mode with
  | handedOver | standard => exact hrel
  | script =>
    generalize runOptions fuel .script releaseFault turning files st o = x at hrel ⊢
    generalize runOptions fuel .script releaseFault turning files st o.loud = y at hrel ⊢
    cases hrel with
    | none => exact .none
    | some h => exact .some h.asScript

/-- What is shown of a run: the records that are there when it begins, as far as they are shown, the
warnings of its calls, and last of all what is said about its outcome. -/
def told (verbose : Bool) (st : Streams) (calls : List Call) (outcome : Outcome) :
    List Diagnostic :=
  (st.log.toList.filter (shown verbose) ++ Call.warnings calls).map .record ++
    (Ending.ofOutcome outcome).2

theorem shown_of_mem_warnings {calls : List Call} {r : LogRecord} (h : r ∈ Call.warnings calls)
    (verbose : Bool) : shown verbose r = true := by
  obtain ⟨c, -, hc⟩ := List.mem_filterMap.1 h
  rcases (c.warning?_eq_some_iff r).1 hc with ⟨b, f, -, -, rfl⟩ | ⟨f, -, -, rfl⟩
  · exact Bool.or_true verbose
  · exact Bool.or_true verbose

theorem CallReport.ofOutcome_stderr {st st' : Streams} {calls : List Call} (h : st.Calls calls st')
    (verbose : Bool) (outcome : Outcome) :
    (ofOutcome verbose outcome st').stderr = told verbose st calls outcome := by
  have hwarnings : (Call.warnings calls).filter (shown verbose) = Call.warnings calls :=
    List.filter_eq_self.2 fun r hr => shown_of_mem_warnings hr verbose
  simp only [ofOutcome, told, h.log, List.filter_append, hwarnings]

/-- A call whose source is interpreted to an end tells of its run. -/
theorem call_of_interpret (mode : Mode) (releaseFault : Option Fault) (turning : TurningAway)
    {source : List UInt8} {settings : Settings} {outcome : Outcome} {st₁ : Streams}
    {calls : List Call} (hparse : parse d arguments = .ok o)
    (hfetch : o.origin.fetch files st = .ok source) (hsettings : o.settings.resolve = .ok settings)
    (hx : interpret fuel settings source st = some (outcome, st₁))
    (hcalls : (st.recordLoad settings source).Calls calls st₁) :
    ∃ report, call fuel mode releaseFault files st arguments d turning = some report ∧
      OnlyReleased st₁ report.streams ∧
      report.stderr = told o.verbose (st.recordLoad settings source) calls outcome := by
  have htold := CallReport.ofOutcome_stderr hcalls o.verbose outcome
  let released := (CallReport.ofOutcome o.verbose outcome st₁).release releaseFault turning
  have hstreams : OnlyReleased st₁ released.streams := by
    rw [CallReport.release_streams]
    exact (OnlyReleased.refl st₁).release _
  have hstderr : released.stderr = told o.verbose (st.recordLoad settings source) calls outcome := by
    rw [CallReport.release_stderr, htold]
  simp only [call, hparse, runOptions_of_prepared hfetch hsettings, hx, Option.map_some]
  cases mode with
  | handedOver => exact ⟨_, rfl, .refl st₁, htold⟩
  | standard => exact ⟨_, rfl, hstreams, hstderr⟩
  | script =>
    refine ⟨_, rfl, ?_, ?_⟩
    · rwa [CallReport.asScript_streams]
    · rwa [CallReport.asScript_stderr]

end

/-- In either edition, whatever arguments ask for a program, `-v` in front of them asks for the same, and
for every record to be shown. With the same fuel the two calls come to an end alike, whatever the files,
the streams, and the plan for the release of the standard output: they end in the same way, with the
same output and the same streams, and what the one without `-v` shows is what the other one shows
without the records of the lexer and the parser; or all of it, if these have been asked for already.

Where a source has been interpreted, both show first the records of reading it, as far as they show
them, then a warning for each fault of the sink that was tolerated, in the order of the calls and down
to the last flush, and nothing but the line on the outcome of the run, should there be one, comes
after these. -/
theorem verbose_changes_only_what_is_shown {arguments : List String} {o : Options}
    (hparse : parse d arguments = .ok o) (fuel : Nat) (mode : Mode) (releaseFault : Option Fault)
    (turning : TurningAway) (files : Files) (st : Streams) :
    parse d ("-v" :: arguments) = .ok { o with verbose := true } ∧
    Option.Rel (CallReport.ShowsLess o.verbose)
      (call fuel mode releaseFault files st arguments d turning)
      (call fuel mode releaseFault files st ("-v" :: arguments) d turning) ∧
    ∀ source settings outcome st₁, o.origin.fetch files st = .ok source →
      o.settings.resolve = .ok settings →
      interpret fuel settings source st = some (outcome, st₁) →
        ∃ calls report loud, (st.recordLoad settings source).Calls calls st₁ ∧
          call fuel mode releaseFault files st arguments d turning = some report ∧
          call fuel mode releaseFault files st ("-v" :: arguments) d turning = some loud ∧
          OnlyReleased st₁ report.streams ∧
          report.stderr = told o.verbose (st.recordLoad settings source) calls outcome ∧
          loud.stderr = told true (st.recordLoad settings source) calls outcome := by
  have hloud := parse_verbose_of_ok hparse
  refine ⟨hloud, call_showsLess hparse, ?_⟩
  intro source settings outcome st₁ hfetch hsettings hx
  obtain ⟨calls, hcalls⟩ := interpret_calls hx
  obtain ⟨report, hreport, hstreams, hstderr⟩ :=
    call_of_interpret mode releaseFault turning hparse hfetch hsettings hx hcalls
  obtain ⟨loud, hcall, -, hstderr'⟩ :=
    call_of_interpret mode releaseFault turning hloud hfetch hsettings hx hcalls
  exact ⟨calls, report, loud, hcalls, hreport, hcall, hstreams, hstderr, hstderr'⟩

/-- On a sink that has been closed and with nothing to read, `,` returns 1 with `-v` and without it.
Both show the warning of the flush before the read and that of the last one, and then why the run has
ended; and with `-v` the records of the lexer and the parser come first. -/
theorem verbose_changes_only_what_is_shown_closed_sink :
    let sink : Sink := { flushFault := fun _ => some ⟨.value, "closed"⟩ }
    let files := Directory.read ⟨[]⟩
    let warning := Diagnostic.record (.flushFailed "closed")
    let said := Diagnostic.text s!"Runtime error: {(Error.inputExhausted 0).message}\n"
    ∃ report loud, call 1 .standard none files { sink } ["-c", ","] .late = some report ∧
      call 1 .standard none files { sink } ["-v", "-c", ","] .late = some loud ∧
      loud.ending = .returned 1 ∧ report.ending = .returned 1 ∧
      loud.stderr =
        [.record (.lexed 1 1 false), .record (.parsed 1), warning, warning, said] ∧
      report.stderr = [warning, warning, said] := by
  intro sink files warning said
  have hparse : parse .late ["-c", ","] = .ok ⟨.code (some ","), {}, false⟩ := rfl
  have hcall : ∃ loud, call 1 .standard none files { sink } ["-v", "-c", ","] .late = some loud ∧
      loud.ending = .returned 1 ∧
      loud.stderr =
        [.record (.lexed 1 1 false), .record (.parsed 1), warning, warning, said] :=
    ⟨_, rfl, rfl, rfl⟩
  obtain ⟨loud, hloud, hending, hstderr⟩ := hcall
  obtain ⟨-, hrel, -⟩ :=
    verbose_changes_only_what_is_shown hparse 1 .standard none .done files { sink }
  generalize call 1 .standard none files { sink } ["-c", ","] .late = x at hrel ⊢
  rw [hloud] at hrel
  cases hrel with
  | @some report _ h =>
    refine ⟨report, loud, rfl, hloud, hending, h.ending.symm.trans hending, hstderr, ?_⟩
    rw [h.stderr, hstderr]
    rfl

end ByteTape.CommandLine
