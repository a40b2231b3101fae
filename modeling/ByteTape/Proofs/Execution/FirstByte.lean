/-
Of what a read brings, a run takes the first byte and nothing else. Results that raise the same fault,
or bring no byte, or begin with the same byte, cannot be told apart by a run, so two sources whose
results go together so, one by one, come to the same end: behind a first byte nothing is kept for a
later read, and a read that brings nothing is one that brings no byte.
-/
import ByteTape.Proofs.Execution.PaddedInput

namespace ByteTape

/-! ## Read results -/

namespace ReadResult

/-- No byte: none of the bytes asked for, or nothing at all. -/
def IsEmpty (x : ReadResult) : Prop := x = .data [] ∨ x = .nothing

/-- Two read results that raise the same fault, or are both without a byte, or have the same first
byte. -/
inductive Alike : ReadResult → ReadResult → Prop
  | fault {f : Fault} : Alike (.fault f) (.fault f)
  | empty {x y : ReadResult} : x.IsEmpty → y.IsEmpty → Alike x y
  | byte {b : UInt8} {bytes bytes' : List UInt8} :
      Alike (.data (b :: bytes)) (.data (b :: bytes'))

/-- A read result without what a run does not take. -/
def trimmed : ReadResult → ReadResult
  | .data bytes => .data (bytes.take 1)
  | .nothing => .data []
  | .fault f => .fault f

variable {x y : ReadResult}

theorem IsEmpty.byte? (h : x.IsEmpty) : x.byte? = .ok none := by
  rcases h with rfl | rfl <;> rfl

theorem IsEmpty.trimmed (h : x.IsEmpty) : x.trimmed = .data [] := by
  rcases h with rfl | rfl <;> rfl

theorem Alike.byte? (h : x.Alike y) : x.byte? = y.byte? := by
  cases h with
  | fault => rfl
  | empty hx hy => rw [hx.byte?, hy.byte?]
  | byte => rfl

theorem Alike.trimmed (h : x.Alike y) : x.trimmed = y.trimmed := by
  cases h with
  | fault => rfl
  | empty hx hy => rw [hx.trimmed, hy.trimmed]
  | byte => rfl

end ReadResult

/-- An event, where a read has brought no more than a run takes. -/
def Event.trimmed : Event → Event
  | .read x => .read x.trimmed
  | e => e

/-! ## Sources -/

namespace Source

/-- What the read of this number brings, counted from zero. -/
def result (source : Source) (n : Nat) : ReadResult := source.getD n (.data [])

/-- Two sources of which each read of the one and the same read of the other are alike. Either may be
the shorter one, where what the other has left brings no byte. -/
def Alike (source source' : Source) : Prop := ∀ n, (source.result n).Alike (source'.result n)

theorem headD_drop (source : Source) (n : Nat) :
    (source.drop n).headD (.data []) = source.result n := by
  rw [List.headD_eq_head?_getD, List.head?_drop, result, List.getD_eq_getElem?_getD]

end Source

/-- Two streams on which the same has happened but for what was read and not taken, and on which, since
there were `past` reads, as many results of the one source have been used up as of the other. -/
structure Streams.ReadAlike (past : Nat) (source source' : Source) (st st' : Streams) : Prop
    extends st.SameOutput st' where
  events : st'.events.toList.map Event.trimmed = st.events.toList.map Event.trimmed
  used : ∃ n, st.reads = past + n ∧ st.source = source.drop n ∧ st'.source = source'.drop n

namespace Streams

variable {past : Nat} {source source' : Source} {st st' : Streams}

theorem ReadAlike.write (h : st.ReadAlike past source source' st') (b : UInt8) :
    (st.write b).1 = (st'.write b).1 ∧
      (st.write b).2.ReadAlike past source source' (st'.write b).2 := by
  obtain ⟨houtcome, hsame⟩ := h.toSameOutput.write b
  refine ⟨houtcome, hsame, ?_, ?_⟩
  · simp [h.events, h.nextWriteFault]
  · simpa using h.used

theorem ReadAlike.flush (h : st.ReadAlike past source source' st') :
    st.flush.1 = st'.flush.1 ∧ st.flush.2.ReadAlike past source source' st'.flush.2 := by
  obtain ⟨houtcome, hsame⟩ := h.toSameOutput.flush
  refine ⟨houtcome, hsame, ?_, ?_⟩
  · simp [h.events, h.nextFlushFault]
  · simpa using h.used

theorem ReadAlike.read (h : st.ReadAlike past source source' st') (hsources : source.Alike source') :
    st.read.1.Alike st'.read.1 ∧ st.read.2.ReadAlike past source source' st'.read.2 := by
  obtain ⟨n, hreads, hsource, hsource'⟩ := h.used
  have halike : st.read.1.Alike st'.read.1 := by
    rw [read_result, read_result, hsource, hsource', Source.headD_drop, Source.headD_drop]
    exact hsources n
  refine ⟨halike, h.toSameOutput.read, ?_, n + 1, ?_, ?_, ?_⟩
  · simp [h.events, Event.trimmed, halike.trimmed]
  · rw [reads_read, hreads, Nat.add_assoc]
  · rw [read_source, hsource, List.tail_drop]
  · rw [read_source, hsource', List.tail_drop]

theorem inStep_readAlike (past : Nat) (hsources : source.Alike source') :
    Streams.InStep (ReadAlike past source source') where
  write := fun b _ _ h => h.write b
  flush := fun _ _ h => h.flush
  read := fun _ _ h => by
    obtain ⟨halike, hread⟩ := h.read hsources
    exact ⟨halike.byte?, hread⟩

theorem readAlike_start (st : Streams) (log : Array LogRecord) (source source' : Source) :
    ReadAlike st.reads source source' { st with source := source, log := log }
      { st with source := source', log := log } where
  sink := rfl
  log := rfl
  events := rfl
  used := ⟨0, rfl, rfl, rfl⟩

end Streams

/-! ## Runs -/

/-- On two sources whose results are alike, read by read, a run of any program on any machine, under
any settings and with any sink, ends on both or goes on for ever on both, step by step. At the end the
outcome is the same, and so are the machine, the sink with what it has stored, and the log; as many
results of the one source have been used up as of the other, which is the number of reads; and the
events are the same but for what was read behind a first byte, and for whether a read without a byte
brought nothing at all. So it is when a source text is interpreted. -/
theorem only_first_bytes_count {source source' : Source} (h : source.Alike source') (fuel : Nat)
    (settings : Settings) (st : Streams) :
    (∀ p m, Option.Rel
      (fun x y => x.1 = y.1 ∧ x.2.Beside (Streams.ReadAlike st.reads source source') y.2)
      (execute fuel settings p ⟨m, { st with source := source }⟩)
      (execute fuel settings p ⟨m, { st with source := source' }⟩)) ∧
    (∀ text, Option.Rel
      (fun x y => x.1 = y.1 ∧ x.2.ReadAlike st.reads source source' y.2)
      (interpret fuel settings text { st with source := source })
      (interpret fuel settings text { st with source := source' })) := by
  have hR := Streams.inStep_readAlike st.reads h
  refine ⟨fun p m => ?_, fun text => ?_⟩
  · exact hR.execute fuel settings p ⟨rfl, st.readAlike_start _ _ _⟩
  · exact hR.interpret fuel settings text (st.readAlike_start _ _ _)

/-- The program `,.,` writes the seven of a first read, whatever was read behind it, and fails at its
second read, be it that nothing is there or that the source is at its end. So the text `,` fails at
once on both. -/
theorem only_first_bytes_count_one_behind :
    let p : Program := .instr (.op .read) (.instr (.op .write) (.instr (.op .read) .nil))
    let more : Source := [.data [7, 9], .nothing]
    let less : Source := [.data [7]]
    (more.Alike less ∧ ∃ s t,
      execute 3 {} p ⟨.fresh 2, { source := more }⟩ = some (.failed (.inputExhausted 0), s) ∧
        execute 3 {} p ⟨.fresh 2, { source := less }⟩ = some (.failed (.inputExhausted 0), t) ∧
        s.streams.sink.stored = #[7] ∧ s.Beside (Streams.ReadAlike 0 more less) t) ∧
    Source.Alike [.nothing] [] ∧ ∃ st st',
      interpret 1 {} [0x2c] { source := [.nothing] } = some (.failed (.inputExhausted 0), st) ∧
        interpret 1 {} [0x2c] {} = some (.failed (.inputExhausted 0), st') ∧
        st.ReadAlike 0 [.nothing] [] st' := by
  intro p more less
  have halike : more.Alike less := fun n => by
    match n with
    | 0 => exact .byte
    | 1 => exact .empty (.inr rfl) (.inl rfl)
    | _ + 2 => exact .empty (.inl rfl) (.inl rfl)
  have hnothing : Source.Alike [.nothing] [] := fun n => by
    match n with
    | 0 => exact .empty (.inr rfl) (.inl rfl)
    | _ + 1 => exact .empty (.inl rfl) (.inl rfl)
  refine ⟨⟨halike, _, _, rfl, rfl, rfl, ?_⟩, hnothing, _, _, rfl, rfl, ?_⟩
  · have hrun := (only_first_bytes_count halike 3 {} {}).1 p (.fresh 2)
    cases hrun with
    | some hends => exact hends.2
  · have hrun := (only_first_bytes_count hnothing 1 {} {}).2 [0x2c]
    cases hrun with
    | some hends => exact hends.2

end ByteTape
