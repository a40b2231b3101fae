/-
What operations in a row come to. Where the pointer lies below the modulus, and the modulus is at most
the length of the tape, a row of moves and changes cannot fail, and all that it does is to move the
pointer by its net shift and to change each cell by its net change there, both counted round. So two
rows with the same net effect can stand for each other in any program, at any depth of loops.
-/
import ByteTape.Program.Straight
import ByteTape.Proofs.Execution.Context

namespace ByteTape

namespace Machine

/-! ## Pointers below the modulus -/

/-- The pointer lies below the modulus, and the tape has all the cells that it may come to. -/
structure Inside (M : Nat) (m : Machine) : Prop where
  nonneg : 0 ≤ m.pointer
  lt : m.pointer < M
  fits : M ≤ m.cells.size

namespace Inside

variable {M : Nat} {m m' : Machine}

theorem pos (h : m.Inside M) : 0 < M := by
  have hnonneg := h.nonneg
  have hlt := h.lt
  omega

theorem cellAt_pointer (h : m.Inside M) : (cellAt M m.pointer : Int) = m.pointer := by
  rw [natCast_cellAt h.pos, Int.emod_eq_of_lt h.nonneg h.lt]

theorem index (h : m.Inside M) : m.index = .ok (cellAt M m.pointer) := by
  have hlt := cellAt_lt h.pos m.pointer
  have hfits := h.fits
  unfold Machine.index
  conv_lhs => rw [← h.cellAt_pointer]
  exact locate_nat (by omega)

theorem move (h : m.Inside M) (d : Int) :
    m.move M d = .ok { m with pointer := wrapped M m.pointer d } := if_neg h.pos.ne'

/-- Pointers below the modulus are the same if they are so counted round. -/
theorem pointer_eq (h : m.Inside M) (h' : m'.Inside M) (hp : m.pointer ≡ m'.pointer [ZMOD M]) :
    m.pointer = m'.pointer := by
  rwa [Int.ModEq, Int.emod_eq_of_lt h.nonneg h.lt, Int.emod_eq_of_lt h'.nonneg h'.lt] at hp

end Inside

/-! ## Tapes that differ by changes of cells -/

/-- The value of a cell, and zero where there is none. -/
def value (m : Machine) (i : Nat) : UInt8 := m.cells.getD i 0

/-- Of the first `M` cells, counted round from position `p`, the second machine has each changed by as
much as `c` says of its offset; it has the others as they are. -/
structure Changed (M : Nat) (p : Int) (c : Int → Int) (m m' : Machine) : Prop where
  size : m'.cells.size = m.cells.size
  near : ∀ k, ((m'.value (cellAt M (p + k))).toNat : Int) ≡
    (m.value (cellAt M (p + k))).toNat + c k [ZMOD 256]
  beyond : ∀ i, M ≤ i → m'.cells[i]? = m.cells[i]?

namespace Changed

variable {M : Nat} {p : Int} {c c' : Int → Int} {m m₁ m₂ : Machine}

theorem of_cells (h : m₁.cells = m.cells) : m.Changed M p (fun _ => 0) m₁ where
  size := by rw [h]
  near := fun k => by
    rw [add_zero, value, h]
    rfl
  beyond := fun i _ => by rw [h]

theorem trans (h₁ : m.Changed M p c m₁) (h₂ : m₁.Changed M p c' m₂) :
    m.Changed M p (fun k => c k + c' k) m₂ where
  size := h₂.size.trans h₁.size
  near := fun k => by
    rw [← add_assoc]
    exact (h₂.near k).trans ((h₁.near k).add_right _)
  beyond := fun i hi => (h₂.beyond i hi).trans (h₁.beyond i hi)

theorem congr (h : m.Changed M p c m₁) (hc : ∀ k, c k = c' k) : m.Changed M p c' m₁ :=
  (funext hc : c = c') ▸ h

/-- One cell set to a value changes by what that value has more. -/
theorem set (hM : 0 < M) (hfits : M ≤ m.cells.size) {a d : Int} {b : UInt8}
    (hb : (b.toNat : Int) ≡ (m.value (cellAt M (p + a))).toNat + d [ZMOD 256]) :
    m.Changed M p (fun k => if a % M = k % M then d else 0) (m.set (cellAt M (p + a)) b) where
  size := size_set ..
  near := fun k => by
    have hsame : cellAt M (p + a) = cellAt M (p + k) ↔ a % M = k % M := by
      rw [cellAt_eq_iff hM]
      exact ⟨fun h => h.add_left_cancel' p, fun h => Int.ModEq.add_left p h⟩
    have hlt := cellAt_lt hM (p + k)
    by_cases h : a % M = k % M
    · rw [if_pos h, ← hsame.2 h, value, Machine.set, Array.getD_eq_getD_getElem?,
        Array.getElem?_setIfInBounds_self_of_lt (by rw [hsame.2 h]; omega), Option.getD_some]
      exact hb
    · rw [if_neg h, add_zero, value, value, Machine.set, Array.getD_eq_getD_getElem?,
        Array.getElem?_setIfInBounds_ne (mt hsame.1 h), Array.getD_eq_getD_getElem?]
  beyond := fun i hi => by
    have hlt := cellAt_lt hM (p + a)
    rw [Machine.set, Array.getElem?_setIfInBounds_ne (by omega)]

/-- Changes that are the same, but for multiples of 256, leave the same cells. -/
theorem cells_eq (h₁ : m.Changed M p c m₁) (h₂ : m.Changed M p c' m₂)
    (hc : ∀ k, c k ≡ c' k [ZMOD 256]) : m₁.cells = m₂.cells := by
  apply Array.ext (h₁.size.trans h₂.size.symm)
  intro i hi₁ hi₂
  by_cases hi : i < M
  · -- below the modulus, the cell is the one at its distance from `p`
    have hcell : cellAt M (p + (i - p)) = i := by
      rw [add_sub_cancel]
      exact cellAt_natCast hi
    have hnear := ((h₁.near (i - p)).trans ((hc _).add_left _)).trans (h₂.near (i - p)).symm
    rw [hcell, value, value, Array.getD_eq_getD_getElem?, Array.getD_eq_getD_getElem?,
      Array.getElem?_eq_getElem hi₁, Array.getElem?_eq_getElem hi₂, Option.getD_some,
      Option.getD_some] at hnear
    have hlt₁ := m₁.cells[i].toNat_lt
    have hlt₂ := m₂.cells[i].toNat_lt
    apply UInt8.toNat_inj.1
    unfold Int.ModEq at hnear
    omega
  · have hbeyond := (h₁.beyond i (by omega)).trans (h₂.beyond i (by omega)).symm
    rw [Array.getElem?_eq_getElem hi₁, Array.getElem?_eq_getElem hi₂] at hbeyond
    exact Option.some.inj hbeyond

end Changed

end Machine

/-! ## Single instructions -/

theorem Instruction.perform_inside {r : Rules} {i : Instruction} {s : State}
    (h : s.machine.Inside r.modulus) : (i.perform r s).2.machine.Inside r.modulus := by
  have hsize := perform_size r i s
  have hfits : r.modulus ≤ (i.perform r s).2.machine.cells.size := hsize ▸ h.fits
  by_cases hi : i.IsMove
  · cases ho : (i.perform r s).1 with
    | normal =>
      obtain ⟨hnonneg, hlt⟩ := (perform_moved hi r s).2 ho
      exact ⟨hnonneg, hlt, hfits⟩
    | failed e =>
      rw [machine_of_failed ho]
      exact h
  · have hpointer := (perform_samePlace hi r s).pointer
    exact ⟨hpointer ▸ h.nonneg, hpointer ▸ h.lt, hfits⟩

namespace Op

variable {r : Rules} {m : Machine} {p a : Int}

theorem perform_move {o : Op} (ho : o.IsMove) (hm : m.Inside r.modulus)
    (hp : m.pointer ≡ p + a [ZMOD r.modulus]) (st : Streams) :
    ∃ m', (Instruction.op o).perform r ⟨m, st⟩ = (.normal, ⟨m', st⟩) ∧
      m'.pointer ≡ p + (a + o.shift) [ZMOD r.modulus] ∧ m'.cells = m.cells := by
  have hperform : (Instruction.op o).perform r ⟨m, st⟩ = State.move r.modulus o.shift ⟨m, st⟩ := by
    rcases ho with rfl | rfl <;> rfl
  refine ⟨_, hperform.trans (State.move_of_ok (hm.move _)), ?_, rfl⟩
  rw [← add_assoc]
  exact (Int.mod_modEq ..).trans (hp.add_right _)

/-- A change is a function of the cell that adds to it, modulo 256. -/
theorem perform_change {o : Op} (ho : o.IsChange) : ∃ f : UInt8 → UInt8,
    (∀ b, ((f b).toNat : Int) ≡ b.toNat + o.change [ZMOD 256]) ∧
      ∀ s, (Instruction.op o).perform r s = s.modifyCell f := by
  rcases ho with rfl | rfl
  · refine ⟨(· + 1), fun b => ?_, fun _ => rfl⟩
    rw [UInt8.toNat_add, UInt8.toNat_one, change, Int.ModEq]
    omega
  · refine ⟨(· - 1), fun b => ?_, fun _ => rfl⟩
    rw [UInt8.toNat_sub, UInt8.toNat_one, change, Int.ModEq]
    omega

/-- An operation on the tape does not fail, and all that it does is its shift and its change. -/
theorem perform_onTape {o : Op} (ho : o.OnTape) (hm : m.Inside r.modulus)
    (hp : m.pointer ≡ p + a [ZMOD r.modulus]) (st : Streams) :
    ∃ m', (Instruction.op o).perform r ⟨m, st⟩ = (.normal, ⟨m', st⟩) ∧
      m'.Inside r.modulus ∧ m'.pointer ≡ p + (a + o.shift) [ZMOD r.modulus] ∧
      m.Changed r.modulus p (fun k => if a % r.modulus = k % r.modulus then o.change else 0) m' := by
  have hinside := Instruction.perform_inside (r := r) (i := .op o) (s := ⟨m, st⟩) hm
  rcases ho with ho | ho
  · obtain ⟨m', hperform, hp', hcells⟩ := perform_move ho hm hp st
    rw [hperform] at hinside
    refine ⟨m', hperform, hinside, hp', (Machine.Changed.of_cells hcells).congr fun k => ?_⟩
    rcases ho with rfl | rfl <;> simp [change]
  · obtain ⟨f, hf, hmodify⟩ := perform_change (r := r) ho
    have hcell : Machine.cellAt r.modulus m.pointer = Machine.cellAt r.modulus (p + a) :=
      (Machine.cellAt_eq_iff hm.pos).2 hp
    have hperform := (hmodify ⟨m, st⟩).trans (State.modifyCell_of_ok (hcell ▸ hm.index) f)
    rw [hperform] at hinside
    refine ⟨_, hperform, hinside, ?_, ?_⟩
    · have hshift : o.shift = 0 := by rcases ho with rfl | rfl <;> rfl
      rw [hshift, add_zero]
      exact hp
    · exact .set hm.pos hm.fits (hf _)

end Op

/-! ## Rows -/

variable {r : Rules} {s s' : State} {o : Outcome}

/-- A row on the tape ends normally, with the pointer moved by its net shift and each cell changed by
its net change there; the streams are left alone. -/
theorem Runs.ofOps {ops : List Op} (hops : ∀ o ∈ ops, o.OnTape) {m : Machine} {p a : Int}
    (hm : m.Inside r.modulus) (hp : m.pointer ≡ p + a [ZMOD r.modulus]) (st : Streams) :
    ∃ m', Runs r (.ofOps ops) ⟨m, st⟩ .normal ⟨m', st⟩ ∧ m'.Inside r.modulus ∧
      m'.pointer ≡ p + (a + Op.netShift ops) [ZMOD r.modulus] ∧
      m.Changed r.modulus p (fun k => Op.sumAt r.modulus k (Op.changesFrom a ops)) m' := by
  induction ops generalizing m a with
  | nil =>
    refine ⟨m, .nil, hm, ?_, .of_cells rfl⟩
    rw [show Op.netShift [] = 0 from rfl, add_zero]
    exact hp
  | cons o ops ih =>
    rw [List.forall_mem_cons] at hops
    obtain ⟨m₁, hperform, hm₁, hp₁, hchanged₁⟩ := Op.perform_onTape hops.1 hm hp st
    obtain ⟨m', hruns, hm', hp', hchanged⟩ := ih hops.2 hm₁ hp₁
    refine ⟨m', .instr hperform hruns, hm', ?_, ?_⟩
    · rw [Op.netShift_cons, ← add_assoc a]
      exact hp'
    · exact (hchanged₁.trans hchanged).congr fun k => rfl

/-- Rows with the same net effect come to the same. -/
theorem Runs.of_sameEffect {xs ys : List Op} (hxs : ∀ o ∈ xs, o.OnTape) (hys : ∀ o ∈ ys, o.OnTape)
    (hshift : Op.netShift xs ≡ Op.netShift ys [ZMOD r.modulus])
    (hchange : ∀ k, Op.netChangeAt r.modulus k xs ≡ Op.netChangeAt r.modulus k ys [ZMOD 256])
    (hs : s.machine.Inside r.modulus) (h : Runs r (.ofOps xs) s o s') :
    Runs r (.ofOps ys) s o s' := by
  have hp : s.machine.pointer ≡ s.machine.pointer + 0 [ZMOD r.modulus] := by rw [add_zero]
  obtain ⟨m₁, hruns₁, hm₁, hp₁, hchanged₁⟩ := Runs.ofOps hxs hs hp s.streams
  obtain ⟨m₂, hruns₂, hm₂, hp₂, hchanged₂⟩ := Runs.ofOps hys hs hp s.streams
  have hcells : m₁.cells = m₂.cells := hchanged₁.cells_eq hchanged₂ hchange
  have hpointer : m₁.pointer = m₂.pointer := by
    refine hm₁.pointer_eq hm₂ (hp₁.trans (Int.ModEq.trans ?_ hp₂.symm))
    exact ((hshift.add_left _).add_left _)
  have hmachine : m₁ = m₂ := by
    obtain ⟨cells, pointer⟩ := m₁
    obtain ⟨cells', pointer'⟩ := m₂
    cases hcells
    cases hpointer
    rfl
  obtain ⟨rfl, rfl⟩ := h.unique hruns₁
  rw [hmachine]
  exact hruns₂

/-! ## Rows in a program -/

/-- Two rows of changes with the same net change, but for multiples of 256, or two rows of moves with
the same net shift, counted round `M` cells. -/
inductive Op.SameNet (M : Nat) (xs ys : List Op) : Prop
  | changes : (∀ o ∈ xs, o.IsChange) → (∀ o ∈ ys, o.IsChange) →
      netChange xs ≡ netChange ys [ZMOD 256] → SameNet M xs ys
  | moves : (∀ o ∈ xs, o.IsMove) → (∀ o ∈ ys, o.IsMove) →
      netShift xs ≡ netShift ys [ZMOD M] → SameNet M xs ys

theorem Op.SameNet.symm {M : Nat} {xs ys : List Op} (h : SameNet M xs ys) : SameNet M ys xs := by
  cases h with
  | changes hxs hys hnet => exact .changes hys hxs hnet.symm
  | moves hxs hys hnet => exact .moves hys hxs hnet.symm

/-- Such rows come to the same. -/
theorem Runs.of_sameNet {xs ys : List Op} (h : Op.SameNet r.modulus xs ys)
    (hs : s.machine.Inside r.modulus) (hruns : Runs r (.ofOps xs) s o s') :
    Runs r (.ofOps ys) s o s' := by
  cases h with
  | changes hxs hys hnet =>
    refine hruns.of_sameEffect (fun o ho => .inr (hxs o ho)) (fun o ho => .inr (hys o ho)) ?_
      (fun k => ?_) hs
    · rw [Op.netShift_of_changes hxs, Op.netShift_of_changes hys]
    · rw [Op.netChangeAt, Op.netChangeAt, Op.sumAt_of_changes hxs, Op.sumAt_of_changes hys]
      split
      · exact hnet
      · rfl
  | moves hxs hys hnet =>
    refine hruns.of_sameEffect (fun o ho => .inl (hxs o ho)) (fun o ho => .inl (hys o ho)) hnet
      (fun k => ?_) hs
    rw [Op.netChangeAt, Op.netChangeAt, Op.sumAt_of_moves hxs, Op.sumAt_of_moves hys]

theorem yields_fill_of_sameNet {settings : Settings} {M : Nat} {xs ys : List Op}
    (hm : settings.wrap.modulus s.machine.cells.size = .ok M) (hs : s.machine.Inside M)
    (h : Op.SameNet M xs ys) (C : Program.Context)
    (hyields : Yields settings (C.fill (.ofOps xs)) s o s') :
    Yields settings (C.fill (.ofOps ys)) s o s' := by
  have hinside : ∀ (i : Instruction) (t : State), t.machine.Inside M →
      (i.perform ⟨M, settings.onEof⟩ t).2.machine.Inside M := fun _ _ ht =>
    Instruction.perform_inside (r := ⟨M, settings.onEof⟩) ht
  exact .ran hm ((hyields.runs hm).fill hinside (fun ht hx => hx.of_sameNet h ht) C hs)

/-- Where the pointer lies below the modulus and the tape has as many cells: in any program, in any
places and at any depth of loops, a row of increments and decrements can be exchanged for any other
with the same sum modulo 256, and a row of moves for any other that leads to the same place round the
modulus. The run ends exactly if it did, with the same outcome, in the same state of the machine and
of its streams. -/
theorem rows_with_same_net {settings : Settings} {M : Nat} {s : State}
    (hm : settings.wrap.modulus s.machine.cells.size = .ok M) (hfits : M ≤ s.machine.cells.size)
    (hlow : 0 ≤ s.machine.pointer) (hhigh : s.machine.pointer < M) {xs ys : List Op}
    (h : Op.SameNet M xs ys) (C : Program.Context) :
    (∀ o s', Ends settings (C.fill (.ofOps xs)) s o s' ↔ Ends settings (C.fill (.ofOps ys)) s o s') ∧
      ((∀ fuel, execute fuel settings (C.fill (.ofOps xs)) s = none) ↔
        ∀ fuel, execute fuel settings (C.fill (.ofOps ys)) s = none) := by
  have hs : s.machine.Inside M := ⟨hlow, hhigh, hfits⟩
  have hends : ∀ o s', Ends settings (C.fill (.ofOps xs)) s o s' ↔
      Ends settings (C.fill (.ofOps ys)) s o s' := by
    intro o s'
    simp only [ends_iff_yields]
    exact ⟨yields_fill_of_sameNet hm hs h C, yields_fill_of_sameNet hm hs h.symm C⟩
  refine ⟨hends, ?_⟩
  simp only [never_ends_iff, hends]

/-- Counting down is counting up by 255, so both empty a cell; and round three cells two steps to the
left are one to the right, so both find the zero two cells on. -/
theorem rows_with_same_net_up_for_down :
    let up : List Op := List.replicate 255 .increment
    let C : Program.Context := .loop (.hole .nil) .nil
    let s : State := ⟨⟨#[3, 1, 0], 0⟩, {}⟩
    Op.SameNet 3 [.decrement] up ∧ Op.SameNet 3 [.right] [.left, .left] ∧
    (∃ s', Ends { wrap := .tape } (C.fill (.ofOps up)) s .normal s' ∧
      s'.machine = ⟨#[0, 1, 0], 0⟩) ∧
    ∃ s', Ends { wrap := .tape } (C.fill (.ofOps [.left, .left])) s .normal s' ∧
      s'.machine = ⟨#[3, 1, 0], 2⟩ := by
  intro up C s
  have hchanges : Op.SameNet 3 [.decrement] up := by
    refine .changes (by decide) (fun o ho => ?_) ?_
    · exact .inl (List.eq_of_mem_replicate ho)
    · rw [Op.netChange, Op.netChange, List.count_replicate, List.count_replicate]
      rfl
  have hmoves : Op.SameNet 3 [.right] [.left, .left] := .moves (by decide) (by decide) rfl
  obtain ⟨s₁, hdown, hmachine₁⟩ : ∃ s', Ends { wrap := .tape } (C.fill (.ofOps [.decrement])) s
      .normal s' ∧ s'.machine = ⟨#[0, 1, 0], 0⟩ := ⟨_, ends_iff.2 ⟨10, rfl⟩, rfl⟩
  obtain ⟨s₂, hright, hmachine₂⟩ : ∃ s', Ends { wrap := .tape } (C.fill (.ofOps [.right])) s
      .normal s' ∧ s'.machine = ⟨#[3, 1, 0], 2⟩ := ⟨_, ends_iff.2 ⟨10, rfl⟩, rfl⟩
  refine ⟨hchanges, hmoves, ⟨s₁, ?_, hmachine₁⟩, ⟨s₂, ?_, hmachine₂⟩⟩
  · exact ((rows_with_same_net rfl (by decide) (by decide) (by decide) hchanges C).1 _ _).1 hdown
  · exact ((rows_with_same_net rfl (by decide) (by decide) (by decide) hmoves C).1 _ _).1 hright

end ByteTape
