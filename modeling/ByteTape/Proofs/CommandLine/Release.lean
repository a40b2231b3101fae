/-
Releasing the standard output. A call on the standard streams amounts to what the same call on streams
that are handed over amounts to, and one release of the standard output after it; but a call that comes
to no run releases nothing, and is the same on both. A release that fails in a way that is tolerated
turns the standard output away and changes nothing else. Any other failure of it takes the place of how
the call ends, and so does a fault of turning the standard output away. As a script a call ends in the
same way again, its code handed on to the system.
-/
import ByteTape.Proofs.CommandLine.Outcome

namespace ByteTape

/-- What interpreting a source does to the streams, once its records are in the log, is calls. -/
theorem interpret_calls {fuel : Nat} {settings : Settings} {source : List UInt8}
    {st st' : Streams} {o : Outcome} (h : interpret fuel settings source st = some (o, st')) :
    ∃ calls, (st.recordLoad settings source).Calls calls st' := by
  cases hload : (Program.load settings.strict source).result with
  | error e =>
    rw [interpret_of_load_error hload] at h
    cases h
    exact ⟨[], .none⟩
  | ok p =>
    obtain ⟨_, _, calls, fault?, _, hcalls, _⟩ := interpret_concludes hload h
    exact ⟨_, hcalls⟩

namespace CommandLine

/-! ## Calls that come to no run -/

section

variable {d : Edition} {files : Files} {st : Streams} {arguments : List String} {o : Options}

end

/-! ## The same call on other streams -/

/-- The fault of turning the standard output away. -/
def TurningAway.fault? : TurningAway → Option Fault
  | .done => none
  | .failed g | .failedBehind g => some g

/-- What a call amounts to as a script (`report'`): a code is handed on to the system, and all else is
the same. -/
structure CallReport.HandedOn (report report' : CallReport) : Prop where
  returned : ∀ code, report.ending = .returned code → report'.ending = .exited code
  ending : (∀ code, report.ending ≠ .returned code) → report'.ending = report.ending
  same : report' = { report with ending := report'.ending }

namespace CallReport

variable {st : Streams}

theorem handedOn_asScript (report : CallReport) : report.HandedOn report.asScript := by
  obtain ⟨ending, streams, stdout, stderr, redirected⟩ := report
  cases ending with
  | returned code =>
    refine ⟨?_, fun h => absurd rfl (h code), rfl⟩
    rintro _ ⟨⟩
    rfl
  | exited | raised => exact ⟨nofun, fun _ => rfl, rfl⟩

section

variable (report : CallReport) (releaseFault : Option Fault) (turning : TurningAway)

/-- Releasing the standard output happens on the streams, and changes nothing else but how the call
ends and whether the output is turned away. -/
theorem release_eq : report.release releaseFault turning = { report with
    ending := (report.release releaseFault turning).ending
    streams := report.streams.happen (.release releaseFault.isSome)
    redirected := (report.release releaseFault turning).redirected } := by
  unfold release
  cases releaseFault with
  | none => rfl
  | some f =>
    dsimp only
    split
    · cases turning <;> rfl
    · rfl

@[simp] theorem release_streams : (report.release releaseFault turning).streams =
    report.streams.happen (.release releaseFault.isSome) := by
  rw [release_eq]

@[simp] theorem release_stdout :
    (report.release releaseFault turning).stdout = report.stdout := by
  rw [release_eq]

@[simp] theorem release_stderr :
    (report.release releaseFault turning).stderr = report.stderr := by
  rw [release_eq]

/-- A fault of the release that is not tolerated takes the place of how the call ends. -/
theorem release_of_not_ordinary {f : Fault} (h : ¬ f.Ordinary) :
    (report.release (some f) turning).ending = .raised (.fault f) ∧
      (report.release (some f) turning).redirected = report.redirected := by
  simp [release, mt Fault.tolerated_iff.1 h]

/-- One that is tolerated has the standard output turned away, and a fault of that takes the place of
how the call ends. -/
theorem release_of_ordinary {f : Fault} (h : f.Ordinary) :
    (report.release (some f) turning).ending =
        turning.fault?.elim report.ending (fun g => .raised (.fault g)) ∧
      ((report.release (some f) turning).redirected = true ↔
        report.redirected = true ∨ ∀ g, turning ≠ .failed g) := by
  cases turning <;> simp [release, TurningAway.fault?, Fault.tolerated_iff.2 h]

end

end CallReport

section

variable {d : Edition} {fuel : Nat} {releaseFault : Option Fault} {turning : TurningAway}
  {files : Files} {st : Streams} {arguments : List String}

end

end CommandLine

end ByteTape
