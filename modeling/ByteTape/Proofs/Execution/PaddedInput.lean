/-
Storing zero at the end of the input comes to the same as having zero bytes there to read. A source is
padded by putting a zero byte in place of every result without a byte, and so many zero bytes behind it.
As long as the padding lasts, a run on the padded source, which never finds nothing to read, keeps step
with a run on the source itself that stores zero for want of input.
-/
import ByteTape.Proofs.Execution.SinkFaults

namespace ByteTape

/-! ## Padding -/

/-- A read result with a zero byte in it if there was none. -/
def ReadResult.filled : ReadResult → ReadResult
  | .data [] | .nothing => .data [0]
  | .data (b :: rest) => .data (b :: rest)
  | .fault f => .fault f

/-- An event, where a read brings a zero byte if it brought none. -/
def Event.filled : Event → Event
  | .read x => .read x.filled
  | e => e

def Event.isRead : Event → Bool
  | .read _ => true
  | .write _ _ | .flush _ | .release _ => false

/-- A source with every result filled, and `zeros` zero bytes behind them. -/
def Source.padded (zeros : Nat) (source : Source) : Source :=
  source.map ReadResult.filled ++ List.replicate zeros (.data [0])

/-- How many reads there have been. -/
def Streams.reads (st : Streams) : Nat := st.events.toList.countP Event.isRead

/-- Streams `st'` with a padded source beside streams `st`. Since the events `past`, every read has
brought a byte; and the padding is enough for all reads up to the number `last`. -/
structure Streams.Padded (past : List Event) (last : Nat) (st st' : Streams) : Prop where
  sink : st'.sink = st.sink
  log : st'.log = st.log
  events : ∃ new, st.events.toList = past ++ new ∧
    st'.events.toList = past ++ new.map Event.filled
  source : ∃ zeros, last ≤ st.reads + zeros ∧ st'.source = st.source.padded zeros

/-! ## Calls on padded streams -/

namespace Streams

variable (st : Streams)

@[simp] theorem reads_write (b : UInt8) : (st.write b).2.reads = st.reads := by
  simp [reads, Event.isRead]

@[simp] theorem reads_flush : st.flush.2.reads = st.reads := by
  simp [reads, Event.isRead]

@[simp] theorem reads_read : st.read.2.reads = st.reads + 1 := by
  simp [reads, Event.isRead]

namespace Padded

variable {st} {st' : Streams} {past : List Event} {last : Nat}

theorem sameOutput (h : st.Padded past last st') : st.SameOutput st' := ⟨h.sink, h.log⟩

theorem write (h : st.Padded past last st') (b : UInt8) :
    (st.write b).1 = (st'.write b).1 ∧ (st.write b).2.Padded past last (st'.write b).2 := by
  have hfault := h.sameOutput.nextWriteFault
  obtain ⟨houtcome, hwritten⟩ := h.sameOutput.write b
  obtain ⟨new, hevents, hevents'⟩ := h.events
  obtain ⟨zeros, hlast, hsource⟩ := h.source
  refine ⟨houtcome, hwritten.sink, hwritten.log, ?_, zeros, ?_, ?_⟩
  · refine ⟨new ++ [.write b st.nextWriteFault.isSome], ?_, ?_⟩
    · simp [hevents]
    · simp [hevents', hfault, Event.filled]
  · rwa [reads_write]
  · rw [write_source, write_source, hsource]

theorem flush (h : st.Padded past last st') :
    st.flush.1 = st'.flush.1 ∧ st.flush.2.Padded past last st'.flush.2 := by
  have hfault := h.sameOutput.nextFlushFault
  obtain ⟨houtcome, hflushed⟩ := h.sameOutput.flush
  obtain ⟨new, hevents, hevents'⟩ := h.events
  obtain ⟨zeros, hlast, hsource⟩ := h.source
  refine ⟨houtcome, hflushed.sink, hflushed.log, ?_, zeros, ?_, ?_⟩
  · refine ⟨new ++ [.flush st.nextFlushFault.isSome], ?_, ?_⟩
    · simp [hevents]
    · simp [hevents', hfault, Event.filled]
  · rwa [reads_flush]
  · rw [flush_source, flush_source, hsource]

/-- A padded source brings the next result filled, and past the end of the other one a zero byte of
its padding, of which there is one left. -/
theorem read_source (h : st.Padded past last st') (hlast : st.reads < last) :
    st'.read.1 = st.read.1.filled ∧
      ∃ zeros, last ≤ st.read.2.reads + zeros ∧ st'.read.2.source = st.read.2.source.padded zeros := by
  obtain ⟨zeros, hzeros, hsource⟩ := h.source
  rw [read_result, read_result, Streams.read_source, Streams.read_source, hsource, reads_read]
  cases st.source with
  | cons x rest => exact ⟨rfl, zeros, by omega, rfl⟩
  | nil =>
    -- nothing is left of the source, so the bound leaves a byte of the padding
    obtain ⟨zeros, rfl⟩ : ∃ k, zeros = k + 1 := ⟨zeros - 1, by omega⟩
    exact ⟨rfl, zeros, by omega, rfl⟩

theorem read (h : st.Padded past last st') (hlast : st.reads < last) :
    st'.read.1 = st.read.1.filled ∧ st.read.2.Padded past last st'.read.2 := by
  obtain ⟨hresult, hsource⟩ := h.read_source hlast
  obtain ⟨new, hevents, hevents'⟩ := h.events
  have houtput := h.sameOutput.read
  refine ⟨hresult, houtput.sink, houtput.log, ⟨new ++ [.read st.read.1], ?_, ?_⟩, hsource⟩
  · simp [hevents]
  · simp [hevents', hresult, Event.filled]

end Padded

end Streams

/-! ## Instructions on padded streams -/

namespace State

/-- Whatever the policy, a filled result is received as the result itself is by storing zero. -/
theorem receive_filled (policy : EofPolicy) (x : ReadResult) (s : State) :
    s.receive policy x.filled = s.receive .zero x := by
  match x with
  | .data [] | .nothing | .data (_ :: _) | .fault _ => rfl

end State

/-- Ends that go together with errors that are the same have one outcome. -/
theorem Paired.exists_eq {R : State → State → Prop} {x y : Outcome × State} (h : Paired Eq R x y) :
    ∃ t', y = (x.1, t') ∧ R x.2 t' := by
  obtain ⟨houtcome, hst⟩ := h.outcome_and_state
  exact ⟨y.2, by rw [houtcome], hst⟩

namespace State.Beside

variable {past : List Event} {last : Nat} {s t : State}

theorem read_padded (h : s.Beside (Streams.Padded past last) t) (policy : EofPolicy)
    (hlast : (s.read .zero).2.streams.reads ≤ last) :
    ∃ t', t.read policy = ((s.read .zero).1, t') ∧
      (s.read .zero).2.Beside (Streams.Padded past last) t' := by
  obtain ⟨houtcome, hflushed⟩ := h.streams.flush
  cases hf : s.streams.flush.1 with
  | failed e =>
    rw [read_of_flush_failed hf, read_of_flush_failed (houtcome ▸ hf)]
    exact ⟨_, rfl, h.machine, hflushed⟩
  | normal =>
    rw [read_of_flushed hf, receive_streams, Streams.reads_read] at hlast
    obtain ⟨hresult, hread⟩ := hflushed.read hlast
    have hbeside : State.Beside (Streams.Padded past last)
        ⟨s.machine, s.streams.flush.2.read.2⟩ ⟨t.machine, t.streams.flush.2.read.2⟩ :=
      ⟨h.machine, hread⟩
    rw [read_of_flushed hf, read_of_flushed (houtcome ▸ hf), hresult, receive_filled]
    exact (hbeside.receive .zero rfl).exists_eq

end State.Beside

/-- No call takes a read back. -/
theorem Streams.Calls.reads_le {st st' : Streams} {calls : List Call} (h : st.Calls calls st') :
    st.reads ≤ st'.reads := by
  unfold Streams.reads
  rw [h.events, List.countP_append]
  omega

/-- Up to the read of the number `last`, a run that stores zero for want of input and a run on a padded
source stay in step, whatever the policy of the latter. -/
theorem inStepWhile_padded (modulus : Nat) (policy : EofPolicy) (past : List Event) (last : Nat) :
    InStepWhile ⟨modulus, .zero⟩ ⟨modulus, policy⟩ (fun s => s.streams.reads ≤ last)
      (State.Beside (Streams.Padded past last)) where
  exceeds := fun i s hs => by
    have hreads := (i.perform_calls ⟨modulus, .zero⟩ s).reads_le
    omega
  current := fun s t h => by rw [h.machine]
  perform := fun i s t h hlast => by
    cases i with
    | foreign name => exact ⟨t, rfl, h⟩
    | op o =>
      cases o with
      | right => exact (h.move modulus 1).exists_eq
      | left => exact (h.move modulus (-1)).exists_eq
      | increment => exact (h.modifyCell (· + 1)).exists_eq
      | decrement => exact (h.modifyCell (· - 1)).exists_eq
      | write => exact (h.write h.streams.write).exists_eq
      | read => exact h.read_padded policy hlast

/-! ## Executions -/

/-- The padding counts from here on, and is enough for the reads it is long for. -/
theorem Streams.padded_source {st : Streams} {last zeros : Nat} (h : last ≤ st.reads + zeros) :
    st.Padded st.events.toList last { st with source := st.source.padded zeros } where
  sink := rfl
  log := rfl
  events := ⟨[], by simp, by simp⟩
  source := ⟨zeros, h, rfl⟩

theorem Ends.padded {settings : Settings} {p : Program} {m : Machine} {st : Streams} {o : Outcome}
    {s' : State} (h : Ends { settings with onEof := .zero } p ⟨m, st⟩ o s') (policy : EofPolicy)
    {zeros : Nat} (hzeros : s'.streams.reads ≤ st.reads + zeros) :
    ∃ t', Ends { settings with onEof := policy } p ⟨m, { st with source := st.source.padded zeros }⟩
        o t' ∧ s'.Beside (Streams.Padded st.events.toList s'.streams.reads) t' := by
  obtain ⟨fuel, hx⟩ := ends_iff.1 h
  have hbeside : State.Beside (Streams.Padded st.events.toList s'.streams.reads) ⟨m, st⟩
      ⟨m, { st with source := st.source.padded zeros }⟩ := ⟨rfl, Streams.padded_source hzeros⟩
  obtain ⟨t', ht, hst⟩ := InStepWhile.execute { settings with onEof := .zero }
    { settings with onEof := policy } (fun modulus => inStepWhile_padded modulus policy _ _) hbeside
    rfl hx (le_refl s'.streams.reads)
  exact ⟨t', ends_iff.2 ⟨fuel, ht⟩, hst⟩

/-- Whatever is run, on any machine and streams: if the run ends that stores zero for want of input, it
ends in the same way on the padded source, whatever the policy there is, with the same machine, sink
and log and with the same events, but that every read has brought a byte, which is zero where there
was none. It is enough that the padding has as many zero bytes as the run has made reads. -/
theorem zero_policy_is_zero_padding (settings : Settings) (p : Program) (m : Machine) (st : Streams)
    (o : Outcome) (s' : State) (h : Ends { settings with onEof := .zero } p ⟨m, st⟩ o s') :
    ∃ new, s'.streams.events.toList = st.events.toList ++ new ∧
      ∀ (policy : EofPolicy) (zeros : Nat), new.countP Event.isRead ≤ zeros → ∃ t',
        Ends { settings with onEof := policy } p
          ⟨m, { st with source := st.source.padded zeros }⟩ o t' ∧
        t'.machine = s'.machine ∧ t'.streams.sink = s'.streams.sink ∧
        t'.streams.log = s'.streams.log ∧
        t'.streams.events.toList = st.events.toList ++ new.map Event.filled := by
  obtain ⟨fuel, hx⟩ := ends_iff.1 h
  obtain ⟨new, hnew⟩ := (execute_calls hx).since
  refine ⟨new, hnew.events, fun policy zeros hzeros => ?_⟩
  have hreads : s'.streams.reads = st.reads + new.countP Event.isRead := by
    rw [Streams.reads, Streams.reads, hnew.events, List.countP_append]
  obtain ⟨t', hends, hst⟩ := h.padded policy (by omega : s'.streams.reads ≤ st.reads + zeros)
  obtain ⟨new', hevents, hevents'⟩ := hst.streams.events
  have hsame : new' = new := List.append_cancel_left (hevents.symm.trans hnew.events)
  rw [hsame] at hevents'
  exact ⟨t', hends, hst.machine.symm, hst.streams.sink, hst.streams.log, hevents'⟩

/-- On a byte and then nothing, `,[.,]` that stores zero for want of input is done after one write; so
it is under the policy to fail, on the byte and three zero bytes. And `,` with the pointer on no cell
fails for want of one, be it that nothing is there to be read or a zero byte. -/
theorem zero_policy_is_zero_padding_echo :
    let p : Program := .instr (.op .read)
      (.loop (.instr (.op .write) (.instr (.op .read) .nil)) .nil)
    let m : Machine := ⟨#[0, 0], -1⟩
    let st : Streams := { source := [.data [7], .nothing] }
    let off : Machine := ⟨#[0, 0], 2⟩
    (∃ s', Ends { onEof := .zero } p ⟨m, st⟩ .normal s' ∧ ∃ t',
      Ends { onEof := .abort } p ⟨m, { source := [.data [7], .data [0], .data [0], .data [0]] }⟩
        .normal t' ∧ t'.machine = s'.machine ∧ t'.streams.events.toList =
        [.flush false, .read (.data [7]), .write 7 false, .flush false, .read (.data [0])]) ∧
    ∃ s', Ends { onEof := .zero } p ⟨off, {}⟩ (.failed .outsideTape) s' ∧ ∃ t',
      Ends { onEof := .unchanged } p ⟨off, { source := [.data [0]] }⟩ (.failed .outsideTape) t' ∧
        t'.machine = s'.machine := by
  intro p m st off
  have hs : Ends { onEof := .zero } p ⟨m, st⟩ .normal _ := ends_iff.2 ⟨10, rfl⟩
  have hoff : Ends { onEof := .zero } p ⟨off, {}⟩ (.failed .outsideTape) _ := ends_iff.2 ⟨10, rfl⟩
  obtain ⟨new, hnew, hpadded⟩ := zero_policy_is_zero_padding {} p m st _ _ hs
  obtain ⟨newOff, hnewOff, hfailed⟩ := zero_policy_is_zero_padding {} p off {} _ _ hoff
  have hnew : new = [.flush false, .read (.data [7]), .write 7 false, .flush false,
    .read .nothing] := hnew.symm
  have hnewOff : newOff = [.flush false, .read (.data [])] := hnewOff.symm
  subst hnew hnewOff
  refine ⟨⟨_, hs, ?_⟩, _, hoff, ?_⟩
  · obtain ⟨t', hends, hmachine, -, -, hevents⟩ := hpadded .abort 2 (by decide)
    exact ⟨t', hends, hmachine, hevents⟩
  · obtain ⟨t', hends, hmachine, -⟩ := hfailed .unchanged 1 (by decide)
    exact ⟨t', hends, hmachine⟩

end ByteTape
