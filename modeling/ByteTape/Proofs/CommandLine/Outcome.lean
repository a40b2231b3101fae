/-
How a call of the program ends. A file that is not read ends it before anything is run, and so does
a text that is no program; otherwise the end of the run decides, after the last flush of the sink.
Since settings that pass their check are known ones and a new machine is safe, a run ends normally,
or for want of input, or at a fault of a stream; so nothing but such a fault leaves a call, unless
in the early edition an option has been given the separator, which is no value there.
-/
import ByteTape.CommandLine.Invocation
import ByteTape.Proofs.CommandLine.Choices
import ByteTape.Proofs.Execution.Blocks
import ByteTape.Proofs.Execution.Outcomes

namespace ByteTape

end ByteTape

namespace ByteTape.CommandLine

/-- Between these streams nothing has happened but releases of the standard output. -/
structure OnlyReleased (st st' : Streams) : Prop where
  sink : st'.sink = st.sink
  source : st'.source = st.source
  events : ∃ new, st'.events.toList = st.events.toList ++ new ∧
    ∀ x ∈ new, ∃ failed, x = .release failed

theorem OnlyReleased.refl (st : Streams) : OnlyReleased st st :=
  ⟨rfl, rfl, [], (List.append_nil _).symm, nofun⟩

theorem OnlyReleased.release {st st' : Streams} (h : OnlyReleased st st') (failed : Bool) :
    OnlyReleased st (st'.happen (.release failed)) := by
  obtain ⟨new, hevents, hnew⟩ := h.events
  refine ⟨h.sink, h.source, new ++ [.release failed], ?_, ?_⟩
  · simp [Streams.happen, hevents]
  · rw [List.forall_mem_append]
    exact ⟨hnew, List.forall_mem_singleton.2 ⟨failed, rfl⟩⟩

/-- Releasing the standard output leaves how a call ends alone: its flush fails at most in a way that is
tolerated, and where it fails the standard output can be turned away. -/
def ReleasesQuietly (releaseFault : Option Fault) (turning : TurningAway) : Prop :=
  ∀ f, releaseFault = some f → f.Ordinary ∧ turning = .done

namespace CallReport

/-! ## What a call amounts to -/

/-- A call for whose option there is no value: it is left by an error, and touches no stream. -/
structure OfLacking (report : CallReport) (st : Streams) (e : Error) : Prop where
  ending : report.ending = .raised e
  streams : report.streams = st

/-- A report that follows from an outcome: the call ends as the outcome has it, its last words are
about the outcome, and nothing has happened since but the release of the standard output. -/
structure Follows (report : CallReport) (o : Outcome) (st : Streams) : Prop where
  ending : report.ending = (Ending.ofOutcome o).1
  stderr : ∃ records, report.stderr = records ++ (Ending.ofOutcome o).2
  streams : OnlyReleased st report.streams

variable {report : CallReport} {st st' : Streams} {o : Outcome} {s : State}

theorem Follows.release {releaseFault : Option Fault} {turning : TurningAway}
    (hrelease : ReleasesQuietly releaseFault turning) (h : report.Follows o st) :
    (report.release releaseFault turning).Follows o st := by
  have hstreams := h.streams.release releaseFault.isSome
  cases releaseFault with
  | none => exact ⟨h.ending, h.stderr, hstreams⟩
  | some f =>
    obtain ⟨hordinary, rfl⟩ := hrelease f rfl
    simp only [CallReport.release, Fault.tolerated_iff.2 hordinary, if_true]
    exact ⟨h.ending, h.stderr, hstreams⟩

end CallReport

/-! ## Calls -/

variable {d : Edition} {fuel : Nat} {mode : Mode} {releaseFault : Option Fault}
  {turning : TurningAway} {files : Files} {st : Streams} {arguments : List String} {o : Options}
  {report : CallReport}

theorem runOptions_of_unfetched (h : o.origin.fetch files st = .error report) :
    runOptions fuel mode releaseFault turning files st o = some report := by
  simp only [runOptions, Options.prepare, h]

theorem runOptions_of_unresolved {source : List UInt8} {e : Error}
    (hfetch : o.origin.fetch files st = .ok source) (he : o.settings.resolve = .error e) :
    runOptions fuel mode releaseFault turning files st o = some (.ofError st e) := by
  simp only [runOptions, Options.prepare, hfetch, he]

theorem runOptions_of_prepared {source : List UInt8} {settings : Settings}
    (hfetch : o.origin.fetch files st = .ok source)
    (hsettings : o.settings.resolve = .ok settings) :
    runOptions fuel mode releaseFault turning files st o =
      (interpret fuel settings source st).map fun x =>
        o.conclude mode releaseFault turning x.1 x.2 := by
  simp only [runOptions, Options.prepare, hfetch, hsettings]

/-- What a call amounts to without a source, and why there is none. -/
theorem fetch_error_cases (h : o.origin.fetch files st = .error report) :
    (∃ path refusal, o.origin = .file path ∧ files path = .error (.refused refusal) ∧
      report = { ending := .returned 1, streams := st, stderr := [.text (cannotRead path refusal)] }) ∨
    (∃ path, o.origin = .file path ∧ files path = .error .embeddedNul ∧
      report = .ofError st .embeddedNul) ∨
    (o.origin = .code none ∧ report = .ofError st .codeNotText) := by
  unfold CodeOrigin.fetch at h
  split at h
  · cases h
  · rename_i horigin
    cases h
    exact .inr (.inr ⟨horigin, rfl⟩)
  · rename_i path horigin
    split at h <;> cases h
    · rename_i refusal hpath
      exact .inl ⟨path, refusal, horigin, hpath, rfl⟩
    · rename_i hpath
      exact .inr (.inl ⟨path, horigin, hpath, rfl⟩)

end ByteTape.CommandLine
