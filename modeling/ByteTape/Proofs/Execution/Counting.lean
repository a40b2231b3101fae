/-
Counting loops. The body of such a loop is a row of moves and changes that comes back to where it
began and takes one from the cell there. So the cell counts the passes: the loop ends when it is zero,
after as many passes as it held, and each other cell has been changed that many times.
-/
import ByteTape.Proofs.Execution.Straight

namespace ByteTape

variable {r : Rules}

theorem Machine.Inside.current {M : Nat} {m : Machine} (h : m.Inside M) :
    m.current = .ok (m.value (cellAt M m.pointer)) := by
  unfold Machine.current
  rw [h.index]
  rfl

/-- A pass of a counting loop ends where it began, with one less in the cell there. -/
theorem Runs.pass {body : List Op} (hbody : ∀ o ∈ body, o.OnTape)
    (hshift : Op.netShift body ≡ 0 [ZMOD r.modulus])
    (hcount : Op.netChangeAt r.modulus 0 body ≡ -1 [ZMOD 256]) {m : Machine}
    (hm : m.Inside r.modulus) {n : Nat}
    (hn : (m.value (Machine.cellAt r.modulus m.pointer)).toNat = n + 1) (st : Streams) :
    ∃ m', Runs r (.ofOps body) ⟨m, st⟩ .normal ⟨m', st⟩ ∧ m'.Inside r.modulus ∧
      m'.pointer = m.pointer ∧ (m'.value (Machine.cellAt r.modulus m.pointer)).toNat = n ∧
      m.Changed r.modulus m.pointer (fun k => Op.netChangeAt r.modulus k body) m' := by
  have hp : m.pointer ≡ m.pointer + 0 [ZMOD r.modulus] := by rw [add_zero]
  obtain ⟨m', hruns, hm', hp', hchanged⟩ := Runs.ofOps hbody hm hp st
  refine ⟨m', hruns, hm', hm'.pointer_eq hm ?_, ?_, hchanged⟩
  · calc m'.pointer ≡ m.pointer + (0 + Op.netShift body) [ZMOD r.modulus] := hp'
      _ ≡ m.pointer + (0 + 0) [ZMOD r.modulus] := (hshift.add_left 0).add_left _
      _ = m.pointer := by ring
  · have hnear := (hchanged.near 0).trans (hcount.add_left _)
    have hlt := (m'.value (Machine.cellAt r.modulus m.pointer)).toNat_lt
    have hlt' := (m.value (Machine.cellAt r.modulus m.pointer)).toNat_lt
    rw [add_zero, hn, Int.ModEq] at hnear
    omega

/-- A counting loop makes as many passes as its cell holds. -/
theorem Runs.counting {body : List Op} (hbody : ∀ o ∈ body, o.OnTape)
    (hshift : Op.netShift body ≡ 0 [ZMOD r.modulus])
    (hcount : Op.netChangeAt r.modulus 0 body ≡ -1 [ZMOD 256]) {m : Machine}
    (hm : m.Inside r.modulus) {n : Nat}
    (hn : (m.value (Machine.cellAt r.modulus m.pointer)).toNat = n) (st : Streams) :
    ∃ m', Runs r (.loop (.ofOps body) .nil) ⟨m, st⟩ .normal ⟨m', st⟩ ∧ m'.pointer = m.pointer ∧
      m.Changed r.modulus m.pointer (fun k => n * Op.netChangeAt r.modulus k body) m' := by
  have hcurrent : (State.mk m st).machine.current = _ := hm.current
  induction n generalizing m with
  | zero =>
    rw [UInt8.toNat_inj.1 (hn.trans UInt8.toNat_zero.symm)] at hcurrent
    refine ⟨m, .loopDone hcurrent .nil, rfl, (Machine.Changed.of_cells rfl).congr fun k => ?_⟩
    rw [Nat.cast_zero, zero_mul]
  | succ n ih =>
    have hne : m.value (Machine.cellAt r.modulus m.pointer) ≠ 0 := by
      intro hzero
      rw [hzero] at hn
      cases hn
    obtain ⟨m₁, hpass, hm₁, hp₁, hn₁, hchanged₁⟩ := Runs.pass hbody hshift hcount hm hn st
    rw [← hp₁] at hn₁
    obtain ⟨m', hloop, hp', hchanged⟩ := ih hm₁ hn₁ hm₁.current
    rw [hp₁] at hp' hchanged
    refine ⟨m', .loopAgain hcurrent hne hpass hloop, hp', (hchanged₁.trans hchanged).congr ?_⟩
    intro k
    push_cast
    ring

/-- Where the pointer lies below the modulus and the tape has as many cells: a loop whose body is made
of moves and changes, moves the pointer by nothing, counted round the modulus, and changes the cell at
which it begins by minus one, modulo 256, comes to a normal end. The pointer is where it was, the cell
there is zero, and the streams are left alone. Every cell that is `k` further on, counted round, has
grown by the first value of the counted cell times what the body adds at the offset `k`; and the cells
from the modulus on are as they were. -/
theorem counting_loop_adds {settings : Settings} {M : Nat} {s : State}
    (hm : settings.wrap.modulus s.machine.cells.size = .ok M) (hfits : M ≤ s.machine.cells.size)
    (hlow : 0 ≤ s.machine.pointer) (hhigh : s.machine.pointer < M) {body : List Op}
    (hbody : ∀ o ∈ body, o.OnTape) (hshift : Op.netShift body ≡ 0 [ZMOD M])
    (hcount : Op.netChangeAt M 0 body ≡ -1 [ZMOD 256]) :
    ∃ s', Ends settings (.loop (.ofOps body) .nil) s .normal s' ∧
      s'.streams = s.streams ∧
      s'.machine.pointer = s.machine.pointer ∧
      s'.machine.cells.size = s.machine.cells.size ∧
      s'.machine.cells[s.machine.pointer.toNat]? = some 0 ∧
      (∀ k : Int, ((s'.machine.value ((s.machine.pointer + k) % M).toNat).toNat : Int) ≡
        (s.machine.value ((s.machine.pointer + k) % M).toNat).toNat +
          (s.machine.value s.machine.pointer.toNat).toNat * Op.netChangeAt M k body [ZMOD 256]) ∧
      ∀ i, M ≤ i → s'.machine.cells[i]? = s.machine.cells[i]? := by
  have hs : s.machine.Inside M := ⟨hlow, hhigh, hfits⟩
  have hcell : Machine.cellAt M s.machine.pointer = s.machine.pointer.toNat := by
    have hcast := hs.cellAt_pointer
    omega
  obtain ⟨m', hruns, hp', hchanged⟩ :=
    Runs.counting (r := ⟨M, settings.onEof⟩) hbody hshift hcount hs rfl s.streams
  refine ⟨⟨m', s.streams⟩, ends_iff_yields.2 (.ran hm hruns), rfl, hp', hchanged.size, ?_,
    ?_, hchanged.beyond⟩
  · have hm' : m'.Inside M := ⟨hp' ▸ hlow, hp' ▸ hhigh, hchanged.size ▸ hfits⟩
    obtain ⟨i, hi, hzero⟩ := Machine.current_eq_ok_iff.1 hruns.current_of_loop
    cases hm'.index.symm.trans hi
    rw [← hcell, ← hp']
    exact hzero
  · intro k
    have hnear := hchanged.near k
    rw [hcell] at hnear
    exact hnear

/-- Round three cells, `->+>>>+<` comes back to where it began and adds twice to the next cell, the
second time from four cells on. With 200 in the last cell it adds 400 to the first one, in which that
is 144. -/
theorem counting_loop_adds_four_cells_on :
    let body : List Op :=
      [.decrement, .right, .increment, .right, .right, .right, .increment, .left]
    let s : State := ⟨⟨#[5, 6, 200], 2⟩, {}⟩
    (∀ o ∈ body, o.OnTape) ∧ Op.netShift body ≡ 0 [ZMOD 3] ∧
    Op.netChangeAt 3 0 body ≡ -1 [ZMOD 256] ∧ Op.netChangeAt 3 1 body = 2 ∧
    ∃ s', Ends { wrap := .tape } (.loop (.ofOps body) .nil) s .normal s' ∧
      s'.streams = s.streams ∧ s'.machine.pointer = 2 ∧ s'.machine.cells[2]? = some 0 ∧
      (s'.machine.value 0).toNat = 149 := by
  intro body s
  have hbody : ∀ o ∈ body, o.OnTape := by decide
  have hshift : Op.netShift body ≡ 0 [ZMOD 3] := by decide
  have hcount : Op.netChangeAt 3 0 body ≡ -1 [ZMOD 256] := by decide
  have htwice : Op.netChangeAt 3 1 body = 2 := by decide
  have hm : (Settings.wrap { wrap := .tape }).modulus s.machine.cells.size = .ok 3 := rfl
  obtain ⟨s', hends, hstreams, hpointer, -, hzero, hnear, -⟩ :=
    counting_loop_adds hm (by decide) (by decide) (by decide) hbody hshift hcount
  refine ⟨hbody, hshift, hcount, htwice, s', hends, hstreams, hpointer, hzero, ?_⟩
  have hfirst := hnear 1
  rw [htwice] at hfirst
  have hlt := (s'.machine.value 0).toNat_lt
  have hsum : ((s'.machine.value 0).toNat : Int) ≡ 5 + 200 * 2 [ZMOD 256] := hfirst
  unfold Int.ModEq at hsum
  omega

end ByteTape
