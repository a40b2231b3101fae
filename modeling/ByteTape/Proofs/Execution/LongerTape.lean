/-
Cells that a run does not touch. Wrapped round 256 cells, the pointer does not depend on the length
of the tape, and once it is not negative it never is again. So more cells at the end of the tape
change nothing of a run, and are not changed by it, unless the run looks for a cell that the shorter
tape does not have. On a tape of 256 cells it never does.
-/
import ByteTape.Proofs.Execution.TapeSafety
import ByteTape.Proofs.Execution.Tracking

namespace ByteTape

/-- The pointer meant no cell. -/
def Error.NoCell : Error → Prop
  | .outsideTape | .pointerTooWide => True
  | _ => False

theorem Error.NoCell.offTape {e : Error} (h : e.NoCell) : e.OffTape := by
  cases e with
  | outsideTape | pointerTooWide => trivial
  | _ => exact h.elim

/-! ## More cells -/

namespace Machine

variable (more : Array UInt8) {m : Machine}

/-- The machine with more cells at the end of its tape. -/
def extend (m : Machine) : Machine := { m with cells := m.cells ++ more }

theorem size_extend : (m.extend more).cells.size = m.cells.size + more.size := Array.size_append

theorem noCell_of_index {e : Error} (h : m.index = .error e) : e.NoCell := by
  rcases index_error h with rfl | rfl <;> trivial

/-- Counted from the beginning, a cell is the same on a longer tape. -/
theorem index_extend {i : Nat} (hpointer : 0 ≤ m.pointer) (h : m.index = .ok i) :
    (m.extend more).index = .ok i := by
  have hwithin : m.Within := index_eq_ok_iff.1 ⟨i, h⟩
  have hi : m.pointer = (m.pointer.toNat : Int) := (Int.toNat_of_nonneg hpointer).symm
  have hlt : m.pointer.toNat < m.cells.size := by
    have := hwithin.2
    omega
  have hshort : m.index = .ok m.pointer.toNat := by
    unfold index
    rw [hi]
    exact locate_nat hlt
  have hlong : (m.extend more).index = .ok m.pointer.toNat := by
    unfold index
    rw [size_extend, show (m.extend more).pointer = m.pointer from rfl, hi]
    exact locate_nat (by omega)
  rw [hlong, ← hshort, h]

theorem index_lt {i : Nat} (h : m.index = .ok i) : i < m.cells.size := locate_lt h

theorem getD_extend {i : Nat} (h : i < m.cells.size) :
    (m.extend more).cells.getD i 0 = m.cells.getD i 0 := by
  rw [Array.getD_eq_getD_getElem?, Array.getD_eq_getD_getElem?]
  exact congrArg (Option.getD · 0) (Array.getElem?_append_left h)

theorem set_extend {i : Nat} (b : UInt8) (h : i < m.cells.size) :
    (m.extend more).set i b = (m.set i b).extend more := by
  unfold extend set
  rw [Array.setIfInBounds_append_left h]

theorem current_extend (hpointer : 0 ≤ m.pointer) :
    (m.extend more).current = m.current ∨ ∃ e, m.current = .error e ∧ e.NoCell := by
  cases hi : m.index with
  | error e => exact .inr ⟨e, current_eq_error_iff.2 hi, noCell_of_index hi⟩
  | ok i =>
    refine .inl ?_
    unfold current
    rw [index_extend more hpointer hi, hi]
    exact congrArg Except.ok (getD_extend more (index_lt hi))

end Machine

/-- The state with more cells at the end of the tape. -/
def State.extend (more : Array UInt8) (s : State) : State := ⟨s.machine.extend more, s.streams⟩

/-! ## Single instructions -/

namespace State

variable (more : Array UInt8) {s : State}

theorem modifyCell_extend (hs : 0 ≤ s.machine.pointer) (f : UInt8 → UInt8) :
    Tracked Error.NoCell (extend more) (s.modifyCell f) ((s.extend more).modifyCell f) := by
  cases hi : s.machine.index with
  | error e =>
    rw [modifyCell_of_error hi]
    exact .inr ⟨e, rfl, Machine.noCell_of_index hi⟩
  | ok i =>
    have hlt := Machine.index_lt hi
    have hi' : (s.extend more).machine.index = .ok i := Machine.index_extend more hs hi
    have hset : ∀ b, (s.extend more).machine.set i b = (s.machine.set i b).extend more :=
      fun b => Machine.set_extend more b hlt
    have hvalue : (s.extend more).machine.cells.getD i 0 = s.machine.cells.getD i 0 :=
      Machine.getD_extend more hlt
    rw [modifyCell_of_ok hi, modifyCell_of_ok hi', hset, hvalue]
    exact .inl rfl

theorem move_extend (modulus : Nat) (d : Int) (s : State) :
    (s.extend more).move modulus d =
      ((s.move modulus d).1, (s.move modulus d).2.extend more) := by
  unfold move Machine.move
  by_cases hzero : modulus = 0
  · simp only [if_pos hzero]
  · simp only [if_neg hzero]
    rfl

theorem write_extend (hs : 0 ≤ s.machine.pointer) :
    Tracked Error.NoCell (extend more) s.write (s.extend more).write := by
  obtain hsame | ⟨e, he, hlost⟩ := Machine.current_extend more hs
  · refine .inl ?_
    have hcurrent : (s.extend more).machine.current = s.machine.current := hsame
    cases hc : s.machine.current with
    | error e => rw [write_of_error hc, write_of_error (hcurrent.trans hc)]
    | ok b =>
      rw [write_of_current hc, write_of_current (hcurrent.trans hc)]
      rfl
  · rw [write_of_error he]
    exact .inr ⟨e, rfl, hlost⟩

theorem receive_extend (hs : 0 ≤ s.machine.pointer) (policy : EofPolicy) (x : ReadResult) :
    Tracked Error.NoCell (extend more) (s.receive policy x) ((s.extend more).receive policy x) := by
  unfold receive
  cases x.byte? with
  | error f => exact .inl rfl
  | ok b? =>
    cases b? with
    | some b => exact modifyCell_extend more hs _
    | none =>
      cases policy with
      | zero => exact modifyCell_extend more hs _
      | abort | unchanged | other v => exact .inl rfl

theorem read_extend (hs : 0 ≤ s.machine.pointer) (policy : EofPolicy) :
    Tracked Error.NoCell (extend more) (s.read policy) ((s.extend more).read policy) := by
  have hstreams : (s.extend more).streams = s.streams := rfl
  cases hf : s.streams.flush.1 with
  | failed e =>
    have hf' : (s.extend more).streams.flush.1 = .failed e := hf
    rw [read_of_flush_failed hf, read_of_flush_failed hf']
    exact .inl rfl
  | normal =>
    have hf' : (s.extend more).streams.flush.1 = .normal := hf
    have hpointer : 0 ≤ (State.mk s.machine s.streams.flush.2.read.2).machine.pointer := hs
    rw [read_of_flushed hf, read_of_flushed hf', hstreams]
    exact receive_extend more hpointer policy _

end State

/-- A pointer that is not negative stays so: a move that fails leaves it, and one that does not leads
to a remainder. -/
theorem Instruction.perform_nonneg (r : Rules) (i : Instruction) {s : State}
    (hs : 0 ≤ s.machine.pointer) : 0 ≤ (i.perform r s).2.machine.pointer := by
  by_cases hi : i.IsMove
  · cases ho : (i.perform r s).1 with
    | normal => exact ((perform_moved hi r s).2 ho).1
    | failed e =>
      rw [machine_of_failed ho]
      exact hs
  · rw [(perform_samePlace hi r s).pointer]
    exact hs

/-- A run on the longer tape goes the same way until the shorter tape lacks a cell. -/
theorem tracks_extend (r : Rules) (more : Array UInt8) :
    Tracks r r Error.NoCell (fun s => 0 ≤ s.machine.pointer) (State.extend more) where
  keeps := fun i _ hs => i.perform_nonneg r hs
  current := fun _ hs => Machine.current_extend more hs
  perform := fun i s hs => by
    cases i with
    | foreign name => exact .inl rfl
    | op o =>
      cases o with
      | right => exact .inl (State.move_extend more r.modulus 1 s)
      | left => exact .inl (State.move_extend more r.modulus (-1) s)
      | increment => exact State.modifyCell_extend more hs (· + 1)
      | decrement => exact State.modifyCell_extend more hs (· - 1)
      | write => exact State.write_extend more hs
      | read => exact State.read_extend more hs r.onEof

/-! ## Stages and executions -/

section

variable {r : Rules} {p : Program} {s : State} (more : Array UInt8)

/-- Where the run is safe, its stages are those on the longer tape. -/
theorem reaches_extend_iff {done : List Instruction} {g : Progress}
    (hsafe : s.machine.Safe r.modulus) (hs : 0 ≤ s.machine.pointer) :
    Reaches r (.start p (s.extend more)) done g ↔
      ∃ g₁, Reaches r (.start p s) done g₁ ∧ g = g₁.map (State.extend more) := by
  have htracks := tracks_extend r more
  have hkept : ∀ {done g}, Reaches r (.start p s) done g → ¬ g.FailedWith Error.NoCell := by
    rintro done (c | ⟨_ | e, s'⟩) hg
    · exact id
    · exact id
    · exact fun hlost => hg.not_offTape hsafe (Error.NoCell.offTape hlost)
  constructor
  · intro hg
    obtain hsame | ⟨done₁, g₁, hg₁, hlost⟩ := htracks.reaches_of_map (c := .start p s) hg hs
    · exact hsame
    · exact absurd hlost (hkept hg₁)
  · rintro ⟨g₁, hg₁, rfl⟩
    exact htracks.reaches hg₁ hs (hkept hg₁)

theorem execute_extend (fuel : Nat) (settings : Settings) (p : Program)
    (hs : 0 ≤ s.machine.pointer) :
    execute fuel { settings with wrap := .byte } p (s.extend more) =
        (execute fuel { settings with wrap := .byte } p s).map (fun x => (x.1, x.2.extend more)) ∨
      ∃ e s', execute fuel { settings with wrap := .byte } p s = some (.failed e, s') ∧ e.NoCell :=
  execute_tracked (fun _ => tracks_extend _ more) rfl hs fuel

/-- On 256 cells it makes no difference whether the pointer wraps round them or round the tape. -/
theorem execute_tape (fuel : Nat) (settings : Settings) (p : Program)
    (hsize : s.machine.cells.size = 256) :
    execute fuel { settings with wrap := .tape } p s =
      execute fuel { settings with wrap := .byte } p s := by
  simp only [execute, PointerWrap.modulus, hsize]

theorem Machine.safe_of_size {m : Machine} (hsize : m.cells.size = 256) (hlow : 0 ≤ m.pointer)
    (hhigh : m.pointer ≤ 255) : m.Safe 256 := by
  refine ⟨by decide, hsize.ge, ?_⟩
  unfold Within
  rw [hsize]
  omega

theorem execute_extend_tape (fuel : Nat) (settings : Settings) (p : Program)
    (hsize : s.machine.cells.size = 256) (hlow : 0 ≤ s.machine.pointer)
    (hhigh : s.machine.pointer ≤ 255) :
    execute fuel { settings with wrap := .byte } p (s.extend more) =
      (execute fuel { settings with wrap := .tape } p s).map fun x => (x.1, x.2.extend more) := by
  rw [execute_tape fuel settings p hsize]
  obtain hsame | ⟨e, s', hx, hlost⟩ := execute_extend more fuel settings p hlow
  · exact hsame
  · refine absurd (Error.NoCell.offTape hlost) (execute_not_offTape hx fun modulus hm => ?_)
    cases hm
    exact Machine.safe_of_size hsize hlow hhigh

end

/-! ## New machines -/

/-- A new machine is one of 256 cells with more of them behind. -/
theorem Machine.fresh_eq_extend :
    fresh defaultSize = (fresh 256).extend (Array.replicate (defaultSize - 256) 0) := by
  unfold fresh extend
  rw [Array.replicate_append_replicate]
  rfl

theorem State.fresh_eq_extend (st : Streams) :
    (⟨.fresh Machine.defaultSize, st⟩ : State) =
      State.extend (Array.replicate (Machine.defaultSize - 256) 0) ⟨.fresh 256, st⟩ := by
  rw [Machine.fresh_eq_extend]
  rfl

theorem execute_fresh (fuel : Nat) (settings : Settings) (p : Program) (st : Streams) :
    execute fuel { settings with wrap := .byte } p ⟨.fresh Machine.defaultSize, st⟩ =
      (execute fuel { settings with wrap := .tape } p ⟨.fresh 256, st⟩).map fun x =>
        (x.1, x.2.extend (Array.replicate (Machine.defaultSize - 256) 0)) := by
  have hsize : (State.mk (.fresh 256) st).machine.cells.size = 256 := Machine.size_fresh 256
  have hpointer : (State.mk (.fresh 256) st).machine.pointer = 0 := rfl
  rw [State.fresh_eq_extend]
  exact execute_extend_tape _ fuel settings p hsize (by omega) (by omega)

/-- Interpreting a source does on its new machine what the program does on 256 cells. -/
theorem interpret_fresh (fuel : Nat) {settings : Settings} {source : List UInt8} {p : Program}
    (hload : (Program.load settings.strict source).result = .ok p) (st : Streams) :
    interpret fuel { settings with wrap := .byte } source st =
      (execute fuel { settings with wrap := .tape } p
        ⟨.fresh 256, st.recordLoad settings source⟩).map fun x => conclude x.1 x.2.streams := by
  have hinterpret : interpret fuel { settings with wrap := .byte } source st =
      (execute fuel { settings with wrap := .byte } p
        ⟨.fresh Machine.defaultSize, st.recordLoad settings source⟩).map fun x =>
          conclude x.1 x.2.streams := interpret_of_load_ok hload
  -- the machine is dropped, and the cells behind with it
  have hdropped : ∀ more, (fun x : Outcome × State => conclude x.1 x.2.streams) ∘
      (fun x : Outcome × State => (x.1, x.2.extend more)) = fun x => conclude x.1 x.2.streams :=
    fun _ => rfl
  rw [hinterpret, execute_fresh, Option.map_map, hdropped]

/-- On a new machine the cells from 256 on stay as they are. -/
theorem Reaches.cells_of_fresh {policy : EofPolicy} {p : Program} {st : Streams}
    {done : List Instruction} {g : Progress} {i : Nat}
    (h : Reaches ⟨256, policy⟩ (.start p ⟨.fresh Machine.defaultSize, st⟩) done g)
    (hlow : 256 ≤ i) (hhigh : i < Machine.defaultSize) : g.state.machine.cells[i]? = some 0 := by
  have hsize : (Machine.fresh 256).cells.size = 256 := Machine.size_fresh 256
  have hpointer : (Machine.fresh 256).pointer = 0 := rfl
  have hsafe : (Machine.fresh 256).Safe 256 := Machine.safe_of_size hsize (by omega) (by omega)
  rw [State.fresh_eq_extend] at h
  obtain ⟨g₁, hg₁, rfl⟩ := (reaches_extend_iff _ hsafe (by exact hpointer.ge)).1 h
  have hlength : g₁.state.machine.cells.size = 256 := hg₁.size.trans hsize
  rw [Progress.state_map]
  show (g₁.state.machine.cells ++ Array.replicate (Machine.defaultSize - 256) 0)[i]? = some 0
  rw [Array.getElem?_append_right (by omega), Array.getElem?_replicate, if_pos (by omega)]

/-- Wrapped round 256 cells, from a pointer that is not negative: a run that does not fail for want
of a cell comes to the same outcome, pointer and streams with any cells at the end of the tape, and
leaves these as they are. On 256 cells, with the pointer on one of them, it is the run that wraps
round the tape, and stage by stage the run with any cells behind. So it is on a new machine, whose
cells from 256 on no stage changes, and interpreting a source comes to what the program does when it
wraps round a tape of 256 cells. -/
theorem byte_wrap_needs_256_cells :
    (∀ (settings : Settings) (p : Program) (s s' : State) (o : Outcome) (more : Array UInt8),
      0 ≤ s.machine.pointer → Ends { settings with wrap := .byte } p s o s' →
      (∀ e, o = .failed e → ¬ e.NoCell) →
        Ends { settings with wrap := .byte } p (s.extend more) o (s'.extend more)) ∧
    (∀ (settings : Settings) (p : Program) (s : State) (more : Array UInt8),
      s.machine.cells.size = 256 → 0 ≤ s.machine.pointer → s.machine.pointer ≤ 255 →
        (∀ fuel, execute fuel { settings with wrap := .byte } p s =
            execute fuel { settings with wrap := .tape } p s ∧
          execute fuel { settings with wrap := .byte } p (s.extend more) =
            (execute fuel { settings with wrap := .tape } p s).map fun x =>
              (x.1, x.2.extend more)) ∧
        ∀ done g, Reaches ⟨256, settings.onEof⟩ (.start p (s.extend more)) done g ↔
          ∃ g₁, Reaches ⟨256, settings.onEof⟩ (.start p s) done g₁ ∧
            g = g₁.map (State.extend more)) ∧
    (∀ (settings : Settings) (p : Program) (st : Streams),
      (∀ fuel, execute fuel { settings with wrap := .byte } p ⟨.fresh Machine.defaultSize, st⟩ =
        (execute fuel { settings with wrap := .tape } p ⟨.fresh 256, st⟩).map fun x =>
          (x.1, x.2.extend (Array.replicate (Machine.defaultSize - 256) 0))) ∧
      ∀ done g i, Reaches ⟨256, settings.onEof⟩ (.start p ⟨.fresh Machine.defaultSize, st⟩) done g →
        256 ≤ i → i < Machine.defaultSize → g.state.machine.cells[i]? = some 0) ∧
    ∀ (fuel : Nat) (settings : Settings) (source : List UInt8) (st : Streams) (p : Program),
      (Program.load settings.strict source).result = .ok p →
        interpret fuel { settings with wrap := .byte } source st =
          (execute fuel { settings with wrap := .tape } p
            ⟨.fresh 256, st.recordLoad settings source⟩).map fun x => conclude x.1 x.2.streams := by
  refine ⟨?_, ?_, ?_, ?_⟩
  · intro settings p s s' o more hs h ho
    exact h.tracked (fun _ => tracks_extend _ more) rfl hs ho
  · intro settings p s more hsize hlow hhigh
    refine ⟨fun fuel => ⟨(execute_tape fuel settings p hsize).symm, ?_⟩, fun done g => ?_⟩
    · exact execute_extend_tape more fuel settings p hsize hlow hhigh
    · exact reaches_extend_iff more (Machine.safe_of_size hsize hlow hhigh) hlow
  · intro settings p st
    refine ⟨fun fuel => ?_, fun done g i h hlow hhigh => ?_⟩
    · exact execute_fresh fuel settings p st
    · exact h.cells_of_fresh hlow hhigh
  · intro fuel settings source st p hload
    exact interpret_fresh fuel hload st

/-- On two cells, with the pointer on the second one, `+,` fails for want of input and names cell 1,
and so it does with a third cell behind, which it leaves. On a new machine `<+` changes the cell 255,
as on a tape of 256 cells, and `+` is interpreted as on one. -/
theorem byte_wrap_needs_256_cells_two_and_more :
    let p : Program := .instr (.op .increment) (.instr (.op .read) .nil)
    let q : Program := .instr (.op .left) (.instr (.op .increment) .nil)
    let s : State := ⟨⟨#[0, 0], 1⟩, {}⟩
    let t : State := ⟨.fresh 256, {}⟩
    (∃ s' : State, Ends {} p (s.extend #[9]) (.failed (.inputExhausted 1)) (s'.extend #[9]) ∧
      (s'.extend #[9]).machine.cells = #[0, 1, 9]) ∧
    (execute 5 {} q (t.extend #[9]) =
      (execute 5 { wrap := .tape } q t).map fun x => (x.1, x.2.extend #[9])) ∧
    (∃ g, Reaches ⟨256, .abort⟩ (.start q ⟨.fresh Machine.defaultSize, {}⟩) [.op .left] g ∧
      g.state.machine.cells[256]? = some 0) ∧
    interpret 5 {} [0x2b] {} = (execute 5 { wrap := .tape } (.instr (.op .increment) .nil)
      ⟨.fresh 256, Streams.recordLoad {} {} [0x2b]⟩).map fun x => conclude x.1 x.2.streams := by
  intro p q s t
  obtain ⟨hends, hsmall, hfresh, hinterpret⟩ := byte_wrap_needs_256_cells
  have hx : Ends {} p s (.failed (.inputExhausted 1)) _ := ends_iff.2 ⟨5, rfl⟩
  have hfailed : ∀ e, Outcome.failed (.inputExhausted 1) = .failed e → ¬ e.NoCell := by
    rintro e ⟨⟩
    exact id
  have hsize : t.machine.cells.size = 256 := Machine.size_fresh 256
  have hpointer : t.machine.pointer = 0 := rfl
  have hleft : Reaches ⟨256, .abort⟩ (.start q ⟨.fresh Machine.defaultSize, {}⟩) [.op .left] _ :=
    Reaches.start.step rfl
  refine ⟨⟨_, hends {} p s _ _ #[9] (by decide) hx hfailed, rfl⟩, ?_, ⟨_, hleft, ?_⟩, ?_⟩
  · exact ((hsmall {} q t #[9] hsize (by omega) (by omega)).1 5).2
  · exact (hfresh {} q {}).2 _ _ 256 hleft (by decide) (by decide)
  · exact hinterpret 5 {} [0x2b] {} _ rfl

end ByteTape
