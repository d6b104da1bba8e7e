import DeterministicExchange.Journal.Persistence

/-!
# What is in the sink

The sink holds a prefix of the accepted records at every point of any
interleaving. The published watermarks stay behind it, and a completed shutdown
has written and flushed everything that was ever accepted.
-/

namespace DeterministicExchange.Journal

open Machine Codec

variable {crc32c : Bytes → U32}

/-! ## Bytes of the journal -/

@[simp] theorem journalBytes_append (xs ys : List JournalRecord) :
    journalBytes (xs ++ ys) = journalBytes xs ++ journalBytes ys := by
  simp [journalBytes]

@[simp] theorem journalBytes_singleton (record : JournalRecord) :
    journalBytes [record] = record.encode.val := by
  simp [journalBytes]

theorem length_journalBytes (records : List JournalRecord) :
    (journalBytes records).length = recordSize * records.length := by
  unfold journalBytes
  rw [List.length_flatten, List.map_map, List.map_congr_left (g := fun _ ↦ recordSize)
    fun record _ ↦ record.encode.property, List.map_const', List.sum_replicate, smul_eq_mul, mul_comm]

theorem journalBytes_mono {xs ys : List JournalRecord} (h : xs <+: ys) :
    journalBytes xs <+: journalBytes ys := by
  obtain ⟨zs, rfl⟩ := h
  rw [journalBytes_append]
  exact List.prefix_append _ _

theorem journalBytes_take_mono (records : List JournalRecord) {m n : ℕ} (h : m ≤ n) :
    journalBytes (records.take m) <+: journalBytes (records.take n) :=
  journalBytes_mono (List.take_prefix_take_left h)

theorem journalBytes_take_succ {records : List JournalRecord} {n : ℕ} {record : JournalRecord}
    (h : records[n]? = some record) :
    journalBytes (records.take (n + 1)) = journalBytes (records.take n) ++ record.encode.val := by
  obtain ⟨hn, rfl⟩ := List.getElem?_eq_some_iff.mp h
  rw [List.take_succ_eq_append_getElem hn, journalBytes_append, journalBytes_singleton]

/-! ## The invariant -/

def joined (records : List RecordBytes) : Bytes := (records.map Subtype.val).flatten

/-- The bytes that are read from the queue and not yet written. -/
def Phase.pending : Phase → Bytes
  | .reading batch => joined batch
  | .writing current rest _ => current ++ joined rest
  | _ => []

/-- The records that are read from the queue and not yet published as written. -/
def Phase.inBatch : Phase → ℕ
  | .reading batch => batch.length
  | .writing _ _ count => count
  | .publishWritten count => count
  | _ => 0

/-- Records, writer, queue and reader: the first `popped` records have left the queue. -/
structure Logged (crc32c : Bytes → U32) (first : ℕ) (records : List JournalRecord)
    (writer : Option JournalWriter) (channel : JournalChannel) (reader : JournalReader) (popped : ℕ) :
    Prop where
  numbered : ∀ i record, records[i]? = some record →
    record.sequence.val = first + i ∧ record.verify crc32c = true
  bound : first + records.length < 2 ^ 64
  next : ∀ w ∈ writer, w.nextSequence.val = first + records.length
  closed : channel.status.producerClosed = true → writer = none
  queue : channel.queue = records.drop popped
  popped_le : popped ≤ records.length
  expected : reader.expectedSequence.val = first + popped
  sound : reader.poisoned = false

/-- What a phase says about the sink, once nothing more can be accepted. -/
def Phase.Fits (closed : Bool) (sink : Sink) (accepted popped durable : ℕ) : Phase → Prop
  | .writing current rest count => current ≠ [] ∧ rest.length < count
  | .publishWritten count => 0 < count
  | .flushBatch count => 0 < count
  | .publishDurable count => 0 < count ∧ sink.flushed = sink.bytes.length
  | .finalFlush => closed = true ∧ popped = accepted
  | .finalDurable => closed = true ∧ popped = accepted ∧ sink.flushed = sink.bytes.length
  | .complete => closed = true ∧ popped = accepted ∧ sink.flushed = sink.bytes.length ∧ durable = popped
  | _ => True

/-- Watermarks, worker and sink. -/
structure Stored (first : ℕ) (records : List JournalRecord) (status : JournalStatus)
    (worker : PersistenceWorker) (sink : Sink) (popped written durable : ℕ) : Prop where
  nextWritten : status.nextWrittenSequence.val = first + written
  nextDurable : status.nextDurableSequence.val = first + durable
  durable_le : durable ≤ written
  written_le : written ≤ popped
  writtenBytes : journalBytes (records.take written) <+: sink.bytes
  durableBytes : recordSize * durable ≤ sink.flushed
  flushed_le : sink.flushed ≤ sink.bytes.length
  stored : sink.bytes <+: journalBytes (records.take popped)
  running : worker.poisoned = false →
    sink.bytes ++ worker.phase.pending = journalBytes (records.take popped) ∧
      written + worker.phase.inBatch = popped
  terminal : worker.poisoned = true → worker.phase = .idle ∨ worker.phase = .gone
  stopping : worker.stopping = true → status.producerClosed = true ∧ worker.poisoned = false
  fits : worker.phase.Fits status.producerClosed sink records.length popped durable
  complete : status.shutdownComplete = true → status.producerClosed = true ∧
    popped = records.length ∧ durable = popped ∧ sink.flushed = sink.bytes.length ∧
      sink.bytes = journalBytes records
  guard : worker.reader.shutdownComplete = status.shutdownComplete

structure Coherent (crc32c : Bytes → U32) (first : ℕ) (records : List JournalRecord) (system : System)
    (popped written durable : ℕ) : Prop where
  log : Logged crc32c first records system.writer system.channel system.worker.reader popped
  store : Stored first records system.channel.status system.worker system.sink popped written durable

/-! ## Steps of the writer -/

section Writer

variable {first : ℕ} {records : List JournalRecord} {system system' : System} {event : Event}
  {popped written durable : ℕ}

/-- The records after a step, and what is then true of the system. -/
def Next (crc32c : Bytes → U32) (first : ℕ) (records : List JournalRecord) (event : Event)
    (system' : System) (written durable : ℕ) : Prop :=
  ∃ popped' written' durable',
    Coherent crc32c first (records ++ (event.record? crc32c).toList) system' popped' written' durable' ∧
      written ≤ written' ∧ durable ≤ durable'

theorem Logged.record (h : Logged crc32c first records system.writer system.channel
    system.worker.reader popped) {writer writer' : JournalWriter} {queue' : List JournalRecord}
    {payload : Bytes} {sequence : SequenceNumber} (hwriter : system.writer = some writer)
    (henqueue : writer.enqueue crc32c system.channel.queue payload = (.ok sequence, writer', queue')) :
    ∃ record, JournalRecord.new crc32c sequence payload = .ok record ∧
      Logged crc32c first (records ++ [record]) (some writer')
        { system.channel with queue := queue' } system.worker.reader popped := by
  obtain ⟨rfl, hnext, _, hpayload, record, hrecord, rfl⟩ := JournalWriter.enqueue_eq_ok henqueue
  have hcurrent := h.next writer hwriter
  have hlt := writer'.nextSequence.isLt
  obtain ⟨record', hrecord', hsequence, _, hverify⟩ :=
    JournalRecord.new_of_le crc32c writer.nextSequence hpayload
  rw [hrecord] at hrecord'
  obtain rfl := Except.ok.inj hrecord'
  refine ⟨record, hrecord, ?_, ?_, ?_, ?_, ?_, ?_, h.expected, h.sound⟩
  · intro i r hr
    rcases Nat.lt_or_ge i records.length with hi | hi
    · rw [List.getElem?_append_left hi] at hr
      exact h.numbered i r hr
    · rw [List.getElem?_append_right hi] at hr
      rw [List.getElem?_singleton] at hr
      split at hr
      · obtain rfl := Option.some.inj hr
        refine ⟨?_, hverify⟩
        rw [hsequence]
        omega
      · simp at hr
  · rw [List.length_append, List.length_singleton]
    omega
  · intro w hw
    obtain rfl := Option.mem_some.mp hw
    rw [List.length_append, List.length_singleton]
    omega
  · intro hclosed
    rw [h.closed hclosed] at hwriter
    simp at hwriter
  · show system.channel.queue ++ [record] = _
    rw [h.queue, List.drop_append_of_le_length h.popped_le]
  · rw [List.length_append]
    exact h.popped_le.trans (Nat.le_add_right _ _)

/-- While the writer is open, more records do not change what is stored. -/
theorem Stored.record {status : JournalStatus} {worker : PersistenceWorker} {sink : Sink}
    (h : Stored first records status worker sink popped written durable)
    (hopen : status.producerClosed = false) (hle : popped ≤ records.length) (record : JournalRecord) :
    Stored first (records ++ [record]) status worker sink popped written durable := by
  have htake : (records ++ [record]).take popped = records.take popped :=
    List.take_append_of_le_length hle
  have htake' : (records ++ [record]).take written = records.take written :=
    List.take_append_of_le_length (h.written_le.trans hle)
  have hfits := h.fits
  refine
    { h with
      writtenBytes := by
        rw [htake']
        exact h.writtenBytes
      stored := by
        rw [htake]
        exact h.stored
      running := by
        rw [htake]
        exact h.running
      fits := ?_
      complete := ?_ }
  · cases hphase : worker.phase with
    | finalFlush | finalDurable | complete =>
      rw [hphase] at hfits
      exact absurd (hopen ▸ hfits.1) Bool.false_ne_true
    | idle | reading | writing | publishWritten | flushBatch | publishDurable | gone =>
      rw [hphase] at hfits
      exact hfits
  · intro hcomplete
    have := (h.complete hcomplete).1
    rw [hopen] at this
    exact absurd this Bool.false_ne_true

theorem Coherent.enqueue (h : Coherent crc32c first records system popped written durable)
    {payload : Bytes} (hstep : system.enqueue crc32c payload = some (event, system')) :
    Next crc32c first records event system' written durable := by
  unfold System.enqueue at hstep
  obtain ⟨writer, hwriter, heq⟩ := Option.map_eq_some_iff.mp hstep
  rcases hresult : writer.enqueue crc32c system.channel.queue payload with ⟨result, writer', queue'⟩
  rw [hresult] at heq
  obtain ⟨rfl, rfl⟩ := Prod.ext_iff.mp heq
  refine ⟨popped, written, durable, ?_, le_rfl, le_rfl⟩
  cases result with
  | error error =>
    obtain ⟨rfl, rfl⟩ := JournalWriter.enqueue_eq_error hresult
    have hsame : records ++ ((Event.enqueued payload (.error error)).record? crc32c).toList = records := by
      simp [Event.record?]
    rw [hsame]
    refine ⟨?_, h.store⟩
    have hlog := h.log
    rw [hwriter] at hlog
    exact hlog
  | ok sequence =>
    obtain ⟨record, hrecord, hlog⟩ := h.log.record hwriter hresult
    have hmore : ((Event.enqueued payload (.ok sequence)).record? crc32c).toList = [record] := by
      simp [Event.record?, hrecord, Except.toOption]
    have hopen : system.channel.status.producerClosed = false := by
      by_contra hclosed
      have hnone := h.log.closed (by simpa using hclosed)
      rw [hnone] at hwriter
      simp at hwriter
    rw [hmore]
    exact ⟨hlog, h.store.record hopen h.log.popped_le record⟩

theorem Phase.Fits.close {phase : Phase} {closed : Bool} {sink : Sink} {accepted : ℕ}
    (h : phase.Fits closed sink accepted popped durable) :
    phase.Fits true sink accepted popped durable := by
  cases phase with
  | finalFlush | finalDurable | complete => exact ⟨rfl, h.2⟩
  | idle | reading | writing | publishWritten | flushBatch | publishDurable | gone => exact h

theorem Coherent.close (h : Coherent crc32c first records system popped written durable)
    (hstep : system.close = some (event, system')) :
    Next crc32c first records event system' written durable := by
  unfold System.close at hstep
  obtain ⟨writer, _, heq⟩ := Option.map_eq_some_iff.mp hstep
  obtain ⟨rfl, rfl⟩ := Prod.ext_iff.mp heq
  have hsame : records ++ (Event.closed.record? crc32c).toList = records := List.append_nil _
  obtain ⟨hnumbered, hbound, hnext, hclosed, hqueue, hpopped_le, hexpected, hsound⟩ := h.log
  refine ⟨popped, written, durable, ?_, le_rfl, le_rfl⟩
  rw [hsame]
  refine ⟨⟨hnumbered, hbound, by simp, fun _ ↦ rfl, hqueue, hpopped_le, hexpected, hsound⟩, ?_⟩
  have hstore := h.store
  exact
    { hstore with
      stopping := fun hstopping ↦ ⟨rfl, (hstore.stopping hstopping).2⟩
      fits := hstore.fits.close
      complete := fun hcomplete ↦ ⟨rfl, (hstore.complete hcomplete).2⟩ }

theorem Coherent.dropWriter (h : Coherent crc32c first records system popped written durable)
    (hstep : system.dropWriter = some (event, system')) :
    Next crc32c first records event system' written durable := by
  unfold System.dropWriter at hstep
  obtain ⟨writer, _, heq⟩ := Option.map_eq_some_iff.mp hstep
  obtain ⟨rfl, rfl⟩ := Prod.ext_iff.mp heq
  have hsame : records ++ (Event.writerDropped.record? crc32c).toList = records := List.append_nil _
  obtain ⟨hnumbered, hbound, hnext, hclosed, hqueue, hpopped_le, hexpected, hsound⟩ := h.log
  refine ⟨popped, written, durable, ?_, le_rfl, le_rfl⟩
  rw [hsame]
  exact ⟨⟨hnumbered, hbound, by simp, fun _ ↦ rfl, hqueue, hpopped_le, hexpected, hsound⟩, h.store⟩

end Writer

/-! ## Steps of the worker -/

section Worker

variable {first : ℕ} {records : List JournalRecord} {system system' : System} {event : Event}
  {popped written durable BATCH : ℕ}

/-- Events of the worker accept no record. -/
theorem Coherent.next (h : Coherent crc32c first records system' popped written durable)
    (hevent : event.record? crc32c = none) {written₀ durable₀ : ℕ} (hwritten : written₀ ≤ written)
    (hdurable : durable₀ ≤ durable) : Next crc32c first records event system' written₀ durable₀ := by
  refine ⟨popped, written, durable, ?_, hwritten, hdurable⟩
  rw [hevent, Option.toList_none, List.append_nil]
  exact h

/-- Another phase with the same bytes and records in flight. -/
theorem Coherent.withPhase (h : Coherent crc32c first records system popped written durable)
    (phase : Phase) (hrunning : system.worker.poisoned = false)
    (hpending : phase.pending = system.worker.phase.pending)
    (hbatch : phase.inBatch = system.worker.phase.inBatch)
    (hfits : phase.Fits system.channel.status.producerClosed system.sink records.length popped durable) :
    Coherent crc32c first records (system.withPhase phase) popped written durable := by
  have hstore := h.store
  refine ⟨h.log,
    { hstore with
      running := ?_
      terminal := ?_
      fits := hfits }⟩
  · intro _
    show system.sink.bytes ++ phase.pending = _ ∧ written + phase.inBatch = popped
    rw [hpending, hbatch]
    exact hstore.running hrunning
  · intro hpoisoned
    have hpoisoned' : system.worker.poisoned = true := hpoisoned
    rw [hrunning] at hpoisoned'
    exact absurd hpoisoned' Bool.false_ne_true

/-- A failure accepts no record. -/
theorem System.record?_fail (system : System) (error : PersistError) :
    (system.fail error).1.record? crc32c = none := by
  unfold System.fail
  dsimp only
  split <;> rfl

/-- A failure keeps what is in the sink. -/
theorem Coherent.fail (h : Coherent crc32c first records system popped written durable)
    (error : PersistError) :
    Coherent crc32c first records (system.fail error).2 popped written durable := by
  have hstore := h.store
  obtain ⟨hnumbered, hbound, hnext, hclosed, hqueue, hpopped_le, hexpected, hsound⟩ := h.log
  exact ⟨⟨hnumbered, hbound, hnext, hclosed, hqueue, hpopped_le, hexpected, hsound⟩,
    { hstore with
      running := fun hpoisoned ↦ nomatch hpoisoned
      terminal := fun _ ↦ .inl rfl
      stopping := fun hstopping ↦ nomatch hstopping
      fits := trivial }⟩

/-- A batch that has no record in flight has returned. -/
theorem Coherent.finishBatch (h : Coherent crc32c first records system popped written durable)
    (hrunning : system.worker.poisoned = false) (hpending : system.worker.phase.pending = [])
    (hbatch : system.worker.phase.inBatch = 0) {count : ℕ}
    (hempty : count = 0 → system.worker.stopping = true → popped = records.length) :
    Coherent crc32c first records (system.finishBatch count).2 popped written durable ∧
      (system.finishBatch count).1.record? crc32c = none := by
  unfold System.finishBatch
  split
  · next hstopping =>
    split
    · next hzero =>
      exact ⟨h.withPhase _ hrunning hpending.symm hbatch.symm
        ⟨(h.store.stopping hstopping).1, hempty hzero hstopping⟩, rfl⟩
    · exact ⟨h.withPhase _ hrunning hpending.symm hbatch.symm trivial, rfl⟩
  · exact ⟨h.withPhase _ hrunning hpending.symm hbatch.symm trivial, rfl⟩

theorem Coherent.drainBatch (h : Coherent crc32c first records system popped written durable)
    (hstep : system.drainBatch = some (event, system')) :
    Next crc32c first records event system' written durable := by
  unfold System.drainBatch at hstep
  split at hstep
  · next hidle =>
    split at hstep
    · obtain ⟨rfl, rfl⟩ := Prod.ext_iff.mp (Option.some.inj hstep)
      exact h.next rfl le_rfl le_rfl
    · next hrunning =>
      obtain ⟨rfl, rfl⟩ := Prod.ext_iff.mp (Option.some.inj hstep)
      have hpending : (Phase.reading []).pending = system.worker.phase.pending := by
        rw [hidle]
        rfl
      have hbatch : (Phase.reading []).inBatch = system.worker.phase.inBatch := by
        rw [hidle]
        rfl
      exact (h.withPhase (.reading []) (by simpa using hrunning) hpending hbatch trivial).next rfl le_rfl
        le_rfl
  · simp at hstep

theorem Coherent.shutdown (h : Coherent crc32c first records system popped written durable)
    (hstep : system.shutdown = some (event, system')) :
    Next crc32c first records event system' written durable := by
  unfold System.shutdown at hstep
  split at hstep
  · next hidle =>
    split at hstep
    · obtain ⟨rfl, rfl⟩ := Prod.ext_iff.mp (Option.some.inj hstep)
      exact h.next rfl le_rfl le_rfl
    next hrunning =>
    split at hstep
    · obtain ⟨rfl, rfl⟩ := Prod.ext_iff.mp (Option.some.inj hstep)
      exact h.next rfl le_rfl le_rfl
    split at hstep
    · obtain ⟨rfl, rfl⟩ := Prod.ext_iff.mp (Option.some.inj hstep)
      exact h.next rfl le_rfl le_rfl
    · next hclosed =>
      obtain ⟨rfl, rfl⟩ := Prod.ext_iff.mp (Option.some.inj hstep)
      have hrunning' : system.worker.poisoned = false := by simpa using hrunning
      have hclosed' : system.channel.status.producerClosed = true := by simpa using hclosed
      have hstore := h.store
      have hbytes := hstore.running hrunning'
      rw [hidle] at hbytes
      have hcoherent : Coherent crc32c first records { system with
          worker := { system.worker with stopping := true, phase := .reading [] } } popped written durable :=
        ⟨h.log,
          { hstore with
            running := fun _ ↦ hbytes
            terminal := fun hpoisoned ↦ absurd hpoisoned hrunning
            stopping := fun _ ↦ ⟨hclosed', hrunning'⟩
            fits := trivial }⟩
      exact hcoherent.next rfl le_rfl le_rfl
  · simp at hstep

/-- A retired worker leaves the sink as it is. -/
theorem Coherent.retire (h : Coherent crc32c first records system popped written durable)
    (hidle : system.worker.phase = .idle) :
    Coherent crc32c first records system.retire popped written durable := by
  have hstore := h.store
  obtain ⟨hnumbered, hbound, hnext, hclosed, hqueue, hpopped_le, hexpected, hsound⟩ := h.log
  have hbytes := hstore.running
  rw [hidle] at hbytes
  unfold System.retire
  by_cases hcomplete : system.worker.reader.shutdownComplete = true
  · simp only [hcomplete, if_true]
    exact ⟨h.log,
      { hstore with
        running := hbytes
        terminal := fun _ ↦ .inr rfl
        fits := trivial }⟩
  · simp only [hcomplete]
    exact ⟨⟨hnumbered, hbound, hnext, hclosed, hqueue, hpopped_le, hexpected, hsound⟩,
      { hstore with
        running := hbytes
        terminal := fun _ ↦ .inr rfl
        fits := trivial }⟩

theorem Coherent.intoSink (h : Coherent crc32c first records system popped written durable)
    (hstep : system.intoSink = some (event, system')) :
    Next crc32c first records event system' written durable := by
  unfold System.intoSink at hstep
  split at hstep
  · next hidle =>
    obtain ⟨rfl, rfl⟩ := Prod.ext_iff.mp (Option.some.inj hstep)
    exact (h.retire hidle).next rfl le_rfl le_rfl
  · simp at hstep

theorem Coherent.dropWorker (h : Coherent crc32c first records system popped written durable)
    (hstep : system.dropWorker = some (event, system')) :
    Next crc32c first records event system' written durable := by
  unfold System.dropWorker at hstep
  split at hstep
  · next hidle =>
    obtain ⟨rfl, rfl⟩ := Prod.ext_iff.mp (Option.some.inj hstep)
    exact (h.retire hidle).next rfl le_rfl le_rfl
  · simp at hstep

/-- A phase other than the resting ones is that of a running worker. -/
theorem Coherent.running_of_phase (h : Coherent crc32c first records system popped written durable)
    (hidle : system.worker.phase ≠ .idle) (hgone : system.worker.phase ≠ .gone) :
    system.worker.poisoned = false := by
  by_contra hpoisoned
  rcases h.store.terminal (by simpa using hpoisoned) with hphase | hphase
  · exact hidle hphase
  · exact hgone hphase

/-- The read loop has ended with `batch`; it was empty only if the queue was. -/
theorem Coherent.startWriting (h : Coherent crc32c first records system popped written durable)
    {batch : List RecordBytes} (hphase : system.worker.phase = .reading batch)
    (hempty : batch = [] → system.worker.stopping = true → popped = records.length) :
    Coherent crc32c first records (system.startWriting batch).2 popped written durable ∧
      (system.startWriting batch).1.record? crc32c = none := by
  have hrunning := h.running_of_phase (by rw [hphase]; simp) (by rw [hphase]; simp)
  cases batch with
  | nil =>
    refine h.finishBatch hrunning ?_ ?_ fun _ ↦ hempty rfl
    · rw [hphase]
      rfl
    · rw [hphase]
      rfl
  | cons record rest =>
    refine ⟨h.withPhase _ hrunning ?_ ?_ ⟨?_, Nat.lt_succ_self _⟩, rfl⟩
    · rw [hphase]
      simp [Phase.pending, joined]
    · rw [hphase]
      rfl
    · intro hnil
      have hlength := record.property
      rw [hnil] at hlength
      exact absurd hlength (by decide)

/-- The next record in the queue joins the batch. -/
theorem Coherent.readRecord (h : Coherent crc32c first records system popped written durable)
    {batch : List RecordBytes} (hphase : system.worker.phase = .reading batch)
    (hless : popped < records.length) :
    ∃ reader channel, system.worker.reader.read crc32c system.channel =
        (.ok records[popped], reader, channel) ∧
      Coherent crc32c first records { system with
        channel := channel
        worker := { system.worker with
          reader := reader
          phase := .reading (batch ++ [records[popped].encode]) } } (popped + 1) written durable := by
  have hrunning := h.running_of_phase (by rw [hphase]; simp) (by rw [hphase]; simp)
  obtain ⟨hnumbered, hbound, hnext, hclosed, hqueue, hpopped_le, hexpected, hsound⟩ := h.log
  have hstore := h.store
  have hget := List.getElem?_eq_getElem hless
  obtain ⟨hsequence, hverify⟩ := hnumbered popped _ hget
  rw [List.drop_eq_getElem_cons hless] at hqueue
  obtain ⟨expected, hval, hread⟩ := JournalReader.read_of_expected hsound hqueue hverify
    (Fin.ext (hsequence.trans hexpected.symm)) (by omega)
  have hbytes := hstore.running hrunning
  rw [hphase] at hbytes
  have htake := journalBytes_take_succ hget
  have hincomplete : system.channel.status.shutdownComplete ≠ true := by
    intro hcomplete
    have := (hstore.complete hcomplete).2.1
    omega
  refine ⟨_, _, hread, ⟨hnumbered, hbound, hnext, hclosed, rfl, hless, ?_, hsound⟩,
    { hstore with
      written_le := hstore.written_le.trans (Nat.le_succ _)
      stored := hstore.stored.trans (journalBytes_take_mono records (Nat.le_succ _))
      running := ?_
      terminal := fun hpoisoned ↦ absurd hpoisoned (by simp [hrunning])
      fits := trivial
      complete := fun hcomplete ↦ absurd hcomplete hincomplete }⟩
  · show expected.val = first + (popped + 1)
    omega
  · intro _
    obtain ⟨hjoined, hcount⟩ := hbytes
    constructor
    · show system.sink.bytes ++ joined (batch ++ [records[popped].encode]) = _
      rw [htake, ← hjoined]
      simp [Phase.pending, joined]
    · show written + (batch ++ [records[popped].encode]).length = popped + 1
      rw [List.length_append, List.length_singleton, ← hcount]
      rfl

theorem Coherent.readNext (hbatch : 0 < BATCH)
    (h : Coherent crc32c first records system popped written durable) {batch : List RecordBytes}
    (hphase : system.worker.phase = .reading batch) :
    ∃ popped', Coherent crc32c first records (system.readNext crc32c BATCH batch).2 popped' written durable ∧
      (system.readNext crc32c BATCH batch).1.record? crc32c = none := by
  unfold System.readNext
  split
  · next hroom =>
    rcases Nat.lt_or_ge popped records.length with hless | hge
    · obtain ⟨reader, channel, hread, hcoherent⟩ := h.readRecord hphase hless
      rw [hread]
      exact ⟨popped + 1, hcoherent, rfl⟩
    · have hqueue := h.log.queue
      rw [List.drop_eq_nil_of_le hge] at hqueue
      rw [JournalReader.read_of_empty h.log.sound hqueue]
      exact ⟨popped, h.startWriting hphase fun _ _ ↦ le_antisymm h.log.popped_le hge⟩
  · next hfull =>
    refine ⟨popped, h.startWriting hphase ?_⟩
    rintro rfl _
    exact absurd hbatch hfull

/-- The batch becomes the published prefix. -/
theorem Coherent.publishWritten (h : Coherent crc32c first records system popped written durable)
    {count : ℕ} (hphase : system.worker.phase = .publishWritten count) (phase : Phase)
    (hpending : phase.pending = []) (hinBatch : phase.inBatch = 0)
    (hfits : phase.Fits system.channel.status.producerClosed system.sink records.length popped durable) :
    Coherent crc32c first records { system with
      channel := { system.channel with
        status := { system.channel.status with
          nextWrittenSequence := system.worker.reader.expectedSequence } }
      worker := { system.worker with phase := phase } } popped popped durable := by
  have hrunning := h.running_of_phase (by rw [hphase]; simp) (by rw [hphase]; simp)
  obtain ⟨hnumbered, hbound, hnext, hclosed, hqueue, hpopped_le, hexpected, hsound⟩ := h.log
  have hstore := h.store
  have hbytes := (hstore.running hrunning).1
  rw [hphase] at hbytes
  have hall : system.sink.bytes = journalBytes (records.take popped) :=
    (List.append_nil _).symm.trans hbytes
  refine ⟨⟨hnumbered, hbound, hnext, hclosed, hqueue, hpopped_le, hexpected, hsound⟩,
    { hstore with
      nextWritten := hexpected
      durable_le := hstore.durable_le.trans hstore.written_le
      written_le := le_rfl
      writtenBytes := by
        rw [hall]
      running := fun _ ↦ ⟨?_, ?_⟩
      terminal := fun hpoisoned ↦ absurd hpoisoned (by simp [hrunning])
      fits := hfits }⟩
  · show system.sink.bytes ++ phase.pending = _
    rw [hpending, List.append_nil, hall]
  · show popped + phase.inBatch = popped
    rw [hinBatch, Nat.add_zero]

/-- A flushed prefix becomes durable. -/
theorem Coherent.publishDurable (h : Coherent crc32c first records system popped written durable)
    (hrunning : system.worker.poisoned = false) (hpending : system.worker.phase.pending = [])
    (hinBatch : system.worker.phase.inBatch = 0) (hflushed : system.sink.flushed = system.sink.bytes.length)
    (phase : Phase) (hpending' : phase.pending = []) (hinBatch' : phase.inBatch = 0)
    (hfits : phase.Fits system.channel.status.producerClosed system.sink records.length popped popped) :
    durable ≤ popped ∧ Coherent crc32c first records { system with
      channel := { system.channel with
        status := { system.channel.status with
          nextDurableSequence := system.worker.reader.expectedSequence } }
      worker := { system.worker with phase := phase } } popped popped popped := by
  obtain ⟨hnumbered, hbound, hnext, hclosed, hqueue, hpopped_le, hexpected, hsound⟩ := h.log
  have hstore := h.store
  obtain ⟨hbytes, hcount⟩ := hstore.running hrunning
  rw [hpending, List.append_nil] at hbytes
  rw [hinBatch, Nat.add_zero] at hcount
  subst hcount
  refine ⟨hstore.durable_le, ⟨hnumbered, hbound, hnext, hclosed, hqueue, hpopped_le, hexpected, hsound⟩,
    { hstore with
      nextDurable := hexpected
      durable_le := le_rfl
      durableBytes := ?_
      running := fun _ ↦ ⟨?_, ?_⟩
      terminal := fun hpoisoned ↦ absurd hpoisoned (by simp [hrunning])
      fits := hfits
      complete := fun hcomplete ↦ ⟨(hstore.complete hcomplete).1, (hstore.complete hcomplete).2.1, rfl,
        (hstore.complete hcomplete).2.2.2⟩ }⟩
  · rw [hflushed, hbytes, length_journalBytes, List.length_take, Nat.min_eq_left hpopped_le]
  · show system.sink.bytes ++ phase.pending = _
    rw [hpending', List.append_nil, hbytes]
  · show written + phase.inBatch = written
    rw [hinBatch', Nat.add_zero]

/-- A nonempty batch returns to its caller or to the loop of `shutdown`. -/
theorem System.finishBatch_of_pos (crc32c : Bytes → U32) (system : System) {count : ℕ} (hpos : 0 < count) :
    ∃ event phase, system.finishBatch count = (event, system.withPhase phase) ∧
      event.record? crc32c = none ∧ phase.pending = [] ∧ phase.inBatch = 0 ∧
      ∀ closed sink accepted popped durable, phase.Fits closed sink accepted popped durable := by
  unfold System.finishBatch
  split
  · rw [if_neg hpos.ne']
    exact ⟨_, _, rfl, rfl, rfl, rfl, fun _ _ _ _ _ ↦ trivial⟩
  · exact ⟨_, _, rfl, rfl, rfl, rfl, fun _ _ _ _ _ ↦ trivial⟩

theorem Coherent.advance (hbatch : 0 < BATCH)
    (h : Coherent crc32c first records system popped written durable)
    (hstep : system.advance crc32c BATCH = some (event, system')) :
    Next crc32c first records event system' written durable := by
  have hstore := h.store
  have hfits := hstore.fits
  unfold System.advance at hstep
  dsimp only at hstep
  split at hstep
  · next batch hphase =>
    obtain ⟨hevent, hsystem⟩ := Prod.ext_iff.mp (Option.some.inj hstep)
    obtain ⟨popped', hcoherent, hnone⟩ := h.readNext hbatch hphase
    rw [hevent] at hnone
    rw [hsystem] at hcoherent
    exact hcoherent.next hnone le_rfl le_rfl
  · next count hphase =>
    rw [hphase] at hfits
    split at hstep
    · obtain ⟨rfl, rfl⟩ := Prod.ext_iff.mp (Option.some.inj hstep)
      exact (h.publishWritten hphase (.flushBatch count) rfl rfl hfits).next rfl hstore.written_le le_rfl
    · obtain ⟨event', phase, hfinish, hnone, hpending, hinBatch, hany⟩ := System.finishBatch_of_pos
        crc32c { system with
          channel := { system.channel with
            status := { system.channel.status with
              nextWrittenSequence := system.worker.reader.expectedSequence } } } hfits
      rw [hfinish] at hstep
      obtain ⟨rfl, rfl⟩ := Prod.ext_iff.mp (Option.some.inj hstep)
      exact (h.publishWritten hphase phase hpending hinBatch (hany _ _ _ _ _)).next hnone
        hstore.written_le le_rfl
  · next count hphase =>
    have hrunning := h.running_of_phase (by rw [hphase]; simp) (by rw [hphase]; simp)
    rw [hphase] at hfits
    obtain ⟨event', phase, hfinish, hnone, hpending, hinBatch, hany⟩ := System.finishBatch_of_pos
      crc32c { system with
        channel := { system.channel with
          status := { system.channel.status with
            nextDurableSequence := system.worker.reader.expectedSequence } } } hfits.1
    rw [hfinish] at hstep
    obtain ⟨rfl, rfl⟩ := Prod.ext_iff.mp (Option.some.inj hstep)
    obtain ⟨hle, hcoherent⟩ := h.publishDurable hrunning (by rw [hphase]; rfl) (by rw [hphase]; rfl) hfits.2
      phase hpending hinBatch (hany _ _ _ _ _)
    exact hcoherent.next hnone hstore.written_le hle
  · next hphase =>
    have hrunning := h.running_of_phase (by rw [hphase]; simp) (by rw [hphase]; simp)
    rw [hphase] at hfits
    obtain ⟨hclosed, hall, hflushed⟩ := hfits
    obtain ⟨rfl, rfl⟩ := Prod.ext_iff.mp (Option.some.inj hstep)
    obtain ⟨hle, hcoherent⟩ := h.publishDurable hrunning (by rw [hphase]; rfl) (by rw [hphase]; rfl) hflushed
      .complete rfl rfl ⟨hclosed, hall, hflushed, rfl⟩
    exact hcoherent.next rfl hstore.written_le hle
  · next hphase =>
    have hrunning := h.running_of_phase (by rw [hphase]; simp) (by rw [hphase]; simp)
    rw [hphase] at hfits
    obtain ⟨hclosed, hall, hflushed, hdurable⟩ := hfits
    obtain ⟨rfl, rfl⟩ := Prod.ext_iff.mp (Option.some.inj hstep)
    obtain ⟨hnumbered, hbound, hnext, hwriter, hqueue, hpopped_le, hexpected, hsound⟩ := h.log
    have hbytes := hstore.running hrunning
    rw [hphase] at hbytes
    have hjournal : system.sink.bytes = journalBytes records := by
      have htaken : system.sink.bytes ++ [] = _ := hbytes.1
      rw [List.append_nil, hall, List.take_length] at htaken
      exact htaken
    have hcoherent : Coherent crc32c first records { system with
        channel := { system.channel with status := { system.channel.status with shutdownComplete := true } }
        worker := { system.worker with
          reader := { system.worker.reader with shutdownComplete := true }
          stopping := false
          phase := .idle } } popped written durable :=
      ⟨⟨hnumbered, hbound, hnext, hwriter, hqueue, hpopped_le, hexpected, hsound⟩,
        { hstore with
          running := fun _ ↦ hbytes
          terminal := fun _ ↦ .inl rfl
          stopping := fun hstopping ↦ nomatch hstopping
          fits := trivial
          complete := fun _ ↦ ⟨hclosed, hall, hdurable, hflushed, hjournal⟩
          guard := rfl }⟩
    exact hcoherent.next rfl le_rfl le_rfl
  · simp at hstep

/-- A write appends some prefix of the slice. -/
theorem WriteOutcome.appended_isInitial (outcome : WriteOutcome) (slice : Bytes) :
    outcome.appended slice <+: slice := by
  unfold WriteOutcome.appended
  cases outcome with
  | count written stray =>
    dsimp only
    split <;> exact List.take_prefix _ _
  | interrupted => exact List.nil_prefix
  | failed stray => exact List.take_prefix _ _

/-- While a batch is written, the sink lacks the rest of the batch. -/
theorem Coherent.of_writing (h : Coherent crc32c first records system popped written durable)
    {current : Bytes} {rest : List RecordBytes} {count : ℕ}
    (hphase : system.worker.phase = .writing current rest count) {bytes left : Bytes}
    (hsplit : current = bytes ++ left) :
    system.sink.bytes ++ bytes ++ (left ++ joined rest) = journalBytes (records.take popped) ∧
      written + count = popped ∧ system.channel.status.shutdownComplete ≠ true ∧
      system.worker.poisoned = false ∧ rest.length < count := by
  have hrunning := h.running_of_phase (by rw [hphase]; simp) (by rw [hphase]; simp)
  have hstore := h.store
  obtain ⟨hbytes, hcount⟩ := hstore.running hrunning
  have hfits := hstore.fits
  rw [hphase] at hbytes hcount hfits
  have hcount' : written + count = popped := hcount
  refine ⟨?_, hcount', ?_, hrunning, hfits.2⟩
  · rw [← hbytes]
    simp [Phase.pending, hsplit]
  · intro hcomplete
    have hdurable := (hstore.complete hcomplete).2.2.1
    have hle := hstore.durable_le
    have hpos := hfits.2
    omega

/-- More bytes of the batch in the sink. -/
theorem Coherent.append (h : Coherent crc32c first records system popped written durable)
    {current : Bytes} {rest : List RecordBytes} {count : ℕ}
    (hphase : system.worker.phase = .writing current rest count) {bytes left : Bytes}
    (hsplit : current = bytes ++ left) (phase : Phase)
    (hpending : phase.pending = left ++ joined rest) (hinBatch : phase.inBatch = count)
    (hfits : ∀ sink, phase.Fits system.channel.status.producerClosed sink records.length popped durable) :
    Coherent crc32c first records { system with
      sink := { system.sink with bytes := system.sink.bytes ++ bytes }
      worker := { system.worker with phase := phase } } popped written durable := by
  obtain ⟨hjoined, hcount, hincomplete, hrunning, _⟩ := h.of_writing hphase hsplit
  have hstore := h.store
  exact ⟨h.log,
    { hstore with
      writtenBytes := hstore.writtenBytes.trans (List.prefix_append _ _)
      flushed_le := hstore.flushed_le.trans (by
        rw [List.length_append]
        exact Nat.le_add_right _ _)
      stored := ⟨left ++ joined rest, hjoined⟩
      running := fun _ ↦ ⟨by rw [hpending]; exact hjoined, by rw [hinBatch]; exact hcount⟩
      terminal := fun hpoisoned ↦ absurd hpoisoned (by simp [hrunning])
      fits := hfits _
      complete := fun hcomplete ↦ absurd hcomplete hincomplete }⟩

/-- A failed write may have left some bytes behind. -/
theorem Coherent.failWriting (h : Coherent crc32c first records system popped written durable)
    {current : Bytes} {rest : List RecordBytes} {count : ℕ}
    (hphase : system.worker.phase = .writing current rest count) (outcome : WriteOutcome)
    (error : PersistError) :
    Next crc32c first records
      ({ system with
        sink := { system.sink with
          bytes := system.sink.bytes ++ outcome.appended current } }.fail error).1
      ({ system with
        sink := { system.sink with
          bytes := system.sink.bytes ++ outcome.appended current } }.fail error).2 written durable := by
  obtain ⟨left, hsplit⟩ := outcome.appended_isInitial current
  obtain ⟨hjoined, hcount, hincomplete, hrunning, _⟩ := h.of_writing hphase hsplit.symm
  obtain ⟨hnumbered, hbound, hnext, hclosed, hqueue, hpopped_le, hexpected, hsound⟩ := h.log
  have hstore := h.store
  have hcoherent : Coherent crc32c first records
      ({ system with
        sink := { system.sink with
          bytes := system.sink.bytes ++ outcome.appended current } }.fail error).2 popped written durable :=
    ⟨⟨hnumbered, hbound, hnext, hclosed, hqueue, hpopped_le, hexpected, hsound⟩,
      { hstore with
        writtenBytes := hstore.writtenBytes.trans (List.prefix_append _ _)
        flushed_le := hstore.flushed_le.trans (by
          show system.sink.bytes.length ≤ (system.sink.bytes ++ _).length
          rw [List.length_append]
          exact Nat.le_add_right _ _)
        stored := ⟨left ++ joined rest, hjoined⟩
        running := fun hpoisoned ↦ nomatch hpoisoned
        terminal := fun _ ↦ .inl rfl
        stopping := fun hstopping ↦ nomatch hstopping
        fits := trivial
        complete := fun hcomplete ↦ absurd hcomplete hincomplete }⟩
  exact hcoherent.next (System.record?_fail _ error) le_rfl le_rfl

theorem Coherent.write (h : Coherent crc32c first records system popped written durable)
    {outcome : WriteOutcome} (hstep : system.write outcome = some (event, system')) :
    Next crc32c first records event system' written durable := by
  unfold System.write at hstep
  split at hstep
  · next current rest count hphase =>
    cases outcome with
    | count k stray =>
      dsimp only at hstep
      split at hstep
      · have hnext := h.failWriting hphase (.count k stray)
          (.io (.writeZero "journal write returned zero"))
        rw [Option.some.inj hstep] at hnext
        exact hnext
      split at hstep
      · next hk =>
        obtain ⟨rfl, rfl⟩ := Prod.ext_iff.mp (Option.some.inj hstep)
        have hsplit : current = current.take k ++ current.drop k := (List.take_append_drop k current).symm
        have happended : (WriteOutcome.count k stray).appended current = current.take k := if_pos hk
        rw [happended]
        obtain ⟨_, _, _, _, hrest⟩ := h.of_writing hphase hsplit
        refine Coherent.next (h.append hphase hsplit
          (System.nextWrite current rest count k) ?_ ?_ ?_) rfl le_rfl
          le_rfl
        · unfold System.nextWrite
          split
          · next hall =>
            rw [List.drop_eq_nil_of_le hall]
            cases rest <;> simp [Phase.pending, joined]
          · rfl
        · unfold System.nextWrite
          split
          · cases rest <;> rfl
          · rfl
        · intro sink
          unfold System.nextWrite
          split
          · cases rest with
            | nil => exact hrest
            | cons record rest =>
              refine ⟨?_, (Nat.lt_succ_self _).trans hrest⟩
              intro hnil
              have hlength := record.property
              rw [hnil] at hlength
              exact absurd hlength (by decide)
          · next hleft =>
            refine ⟨?_, hrest⟩
            rw [ne_eq, List.drop_eq_nil_iff]
            exact hleft
      · have hnext := h.failWriting hphase (.count k stray)
          (.io (.invalidData "journal sink returned an invalid write count"))
        rw [Option.some.inj hstep] at hnext
        exact hnext
    | interrupted =>
      obtain ⟨rfl, rfl⟩ := Prod.ext_iff.mp (Option.some.inj hstep)
      have hsame : system.sink.bytes ++ WriteOutcome.interrupted.appended current = system.sink.bytes :=
        List.append_nil _
      rw [hsame]
      exact h.next rfl le_rfl le_rfl
    | failed stray =>
      have hnext := h.failWriting hphase (.failed stray) (.io .failed)
      rw [Option.some.inj hstep] at hnext
      exact hnext
  · simp at hstep

theorem Coherent.flushed (h : Coherent crc32c first records system popped written durable) (phase : Phase)
    (hrunning : system.worker.poisoned = false) (hpending : phase.pending = system.worker.phase.pending)
    (hinBatch : phase.inBatch = system.worker.phase.inBatch)
    (hfits : phase.Fits system.channel.status.producerClosed
      { system.sink with flushed := system.sink.bytes.length } records.length popped durable) :
    Coherent crc32c first records { system with
      sink := { system.sink with flushed := system.sink.bytes.length }
      worker := { system.worker with phase := phase } } popped written durable := by
  have hstore := h.store
  exact ⟨h.log,
    { hstore with
      durableBytes := hstore.durableBytes.trans hstore.flushed_le
      flushed_le := le_rfl
      running := fun _ ↦ by
        rw [hpending, hinBatch]
        exact hstore.running hrunning
      terminal := fun hpoisoned ↦ absurd hpoisoned (by simp [hrunning])
      fits := hfits
      complete := fun hcomplete ↦ ⟨(hstore.complete hcomplete).1, (hstore.complete hcomplete).2.1,
        (hstore.complete hcomplete).2.2.1, rfl, (hstore.complete hcomplete).2.2.2.2⟩ }⟩

theorem Coherent.flush (h : Coherent crc32c first records system popped written durable)
    {succeeds : Bool} (hstep : system.flush succeeds = some (event, system')) :
    Next crc32c first records event system' written durable := by
  have hfits := h.store.fits
  unfold System.flush at hstep
  dsimp only at hstep
  split at hstep
  · next count hphase =>
    have hrunning := h.running_of_phase (by rw [hphase]; simp) (by rw [hphase]; simp)
    rw [hphase] at hfits
    split at hstep
    · obtain ⟨rfl, rfl⟩ := Prod.ext_iff.mp (Option.some.inj hstep)
      exact (h.flushed (.publishDurable count) hrunning (by rw [hphase]; rfl) (by rw [hphase]; rfl)
        ⟨hfits, rfl⟩).next rfl le_rfl le_rfl
    · have hnext := (h.fail (.io .failed)).next (System.record?_fail system (.io .failed)) le_rfl le_rfl
      rw [Option.some.inj hstep] at hnext
      exact hnext
  · next hphase =>
    have hrunning := h.running_of_phase (by rw [hphase]; simp) (by rw [hphase]; simp)
    rw [hphase] at hfits
    split at hstep
    · obtain ⟨rfl, rfl⟩ := Prod.ext_iff.mp (Option.some.inj hstep)
      exact (h.flushed .finalDurable hrunning (by rw [hphase]; rfl) (by rw [hphase]; rfl)
        ⟨hfits.1, hfits.2, rfl⟩).next rfl le_rfl le_rfl
    · have hnext := (h.fail (.io .failed)).next (System.record?_fail system (.io .failed)) le_rfl le_rfl
      rw [Option.some.inj hstep] at hnext
      exact hnext
  · simp at hstep

theorem Coherent.step (hbatch : 0 < BATCH)
    (h : Coherent crc32c first records system popped written durable) {turn : Turn}
    (hstep : system.step crc32c BATCH turn = some (event, system')) :
    Next crc32c first records event system' written durable := by
  cases turn with
  | enqueue payload => exact h.enqueue hstep
  | close => exact h.close hstep
  | dropWriter => exact h.dropWriter hstep
  | drainBatch => exact h.drainBatch hstep
  | shutdown => exact h.shutdown hstep
  | intoSink => exact h.intoSink hstep
  | dropWorker => exact h.dropWorker hstep
  | advance => exact h.advance hbatch hstep
  | write outcome => exact h.write hstep
  | flush succeeds => exact h.flush hstep

end Worker

/-! ## After a failure -/

/-- A worker that has failed, between its calls. -/
def PersistenceWorker.Halted (worker : PersistenceWorker) : Prop :=
  worker.poisoned = true ∧ (worker.phase = .idle ∨ worker.phase = .gone)

/-- Nothing more is written or published by a failed worker. -/
theorem System.step_of_halted {system system' : System} {event : Event} {BATCH : ℕ} {turn : Turn}
    (hhalted : system.worker.Halted) (hstep : system.step crc32c BATCH turn = some (event, system')) :
    system'.worker.Halted ∧ system'.sink = system.sink ∧
      system'.channel.status.nextWrittenSequence = system.channel.status.nextWrittenSequence ∧
      system'.channel.status.nextDurableSequence = system.channel.status.nextDurableSequence ∧
      system'.channel.status.shutdownComplete = system.channel.status.shutdownComplete := by
  obtain ⟨hpoisoned, hphase⟩ := hhalted
  cases turn with
  | enqueue payload =>
    obtain ⟨writer, _, heq⟩ := Option.map_eq_some_iff.mp hstep
    obtain ⟨_, rfl⟩ := Prod.ext_iff.mp heq
    exact ⟨⟨hpoisoned, hphase⟩, rfl, rfl, rfl, rfl⟩
  | close =>
    obtain ⟨writer, _, heq⟩ := Option.map_eq_some_iff.mp hstep
    obtain ⟨_, rfl⟩ := Prod.ext_iff.mp heq
    exact ⟨⟨hpoisoned, hphase⟩, rfl, rfl, rfl, rfl⟩
  | dropWriter =>
    obtain ⟨writer, _, heq⟩ := Option.map_eq_some_iff.mp hstep
    obtain ⟨_, rfl⟩ := Prod.ext_iff.mp heq
    exact ⟨⟨hpoisoned, hphase⟩, rfl, rfl, rfl, rfl⟩
  | drainBatch | shutdown =>
    rcases hphase with hidle | hgone
    · simp only [step, drainBatch, shutdown, hidle, hpoisoned, if_true, Option.some.injEq,
        Prod.mk.injEq] at hstep
      obtain ⟨_, rfl⟩ := hstep
      exact ⟨⟨hpoisoned, .inl hidle⟩, rfl, rfl, rfl, rfl⟩
    · simp [step, drainBatch, shutdown, hgone] at hstep
  | intoSink | dropWorker =>
    rcases hphase with hidle | hgone
    · simp only [step, intoSink, dropWorker, hidle, Option.some.injEq, Prod.mk.injEq] at hstep
      obtain ⟨_, rfl⟩ := hstep
      unfold retire
      refine ⟨⟨hpoisoned, .inr rfl⟩, rfl, ?_⟩
      dsimp only
      split <;> exact ⟨rfl, rfl, rfl⟩
    · simp [step, intoSink, dropWorker, hgone] at hstep
  | advance | write outcome | flush succeeds =>
    rcases hphase with hidle | hgone
    · simp [step, advance, write, flush, hidle] at hstep
    · simp [step, advance, write, flush, hgone] at hstep

/-- A failed worker leaves the sink and the progress as they are, whatever comes later. -/
theorem System.Reaches.of_halted {system system' : System} {events : List Event} {BATCH : ℕ}
    (hhalted : system.worker.Halted) (hreach : System.Reaches crc32c BATCH system events system') :
    system'.worker.Halted ∧ system'.sink = system.sink ∧
      system'.channel.status.nextWrittenSequence = system.channel.status.nextWrittenSequence ∧
      system'.channel.status.nextDurableSequence = system.channel.status.nextDurableSequence ∧
      system'.channel.status.shutdownComplete = system.channel.status.shutdownComplete := by
  induction hreach with
  | start => exact ⟨hhalted, rfl, rfl, rfl, rfl⟩
  | step _ turn hstep ih =>
    obtain ⟨hhalted', hsink, hwritten, hdurable, hcomplete⟩ := ih
    obtain ⟨hnext, hsink', hwritten', hdurable', hcomplete'⟩ := System.step_of_halted hhalted' hstep
    exact ⟨hnext, hsink'.trans hsink, hwritten'.trans hwritten, hdurable'.trans hdurable,
      hcomplete'.trans hcomplete⟩

/-! ## Runs -/

section Runs

variable {BATCH first : ℕ} {records : List JournalRecord} {policy : FlushPolicy}

theorem recordsOf_concat (events : List Event) (event : Event) :
    recordsOf crc32c (events ++ [event]) = recordsOf crc32c events ++ (event.record? crc32c).toList := by
  unfold recordsOf
  rw [List.filterMap_append]
  cases hevent : event.record? crc32c with
  | none => simp [hevent]
  | some record => simp [hevent]

theorem Coherent.reaches (hbatch : 0 < BATCH) {system system' : System} {popped written durable : ℕ}
    (h : Coherent crc32c first records system popped written durable) {events : List Event}
    (hreach : System.Reaches crc32c BATCH system events system') :
    ∃ popped' written' durable',
      Coherent crc32c first (records ++ recordsOf crc32c events) system' popped' written' durable' ∧
        written ≤ written' ∧ durable ≤ durable' := by
  induction hreach with
  | start =>
    refine ⟨popped, written, durable, ?_, le_rfl, le_rfl⟩
    rw [recordsOf, List.filterMap_nil, List.append_nil]
    exact h
  | @step events _ _ event _ turn hstep ih =>
    obtain ⟨popped₁, written₁, durable₁, hcoherent, hwritten₁, hdurable₁⟩ := ih
    obtain ⟨popped₂, written₂, durable₂, hnext, hwritten₂, hdurable₂⟩ := hcoherent.step hbatch hstep
    refine ⟨popped₂, written₂, durable₂, ?_, hwritten₁.trans hwritten₂, hdurable₁.trans hdurable₂⟩
    rw [recordsOf_concat, ← List.append_assoc]
    exact hnext

/-- A system starts only with a nonzero batch, and with nothing accepted. -/
theorem System.start_eq_ok {firstSequence : U64} {start : System}
    (h : System.start BATCH policy firstSequence = .ok start) :
    0 < BATCH ∧ Coherent crc32c firstSequence.val [] start 0 0 0 := by
  unfold System.start PersistenceWorker.new at h
  by_cases hbatch : BATCH = 0
  · simp [hbatch, bind, Except.bind] at h
  have hstart : start = ⟨some ⟨firstSequence⟩, ⟨[], JournalStatus.new firstSequence⟩,
      ⟨⟨firstSequence, false, false⟩, policy, false, false, .idle⟩, ⟨[], 0⟩⟩ := by
    simpa [hbatch, bind, Except.bind, pure, Except.pure, JournalChannel.split, JournalStatus.new,
      JournalChannel.new, eq_comm] using h
  subst hstart
  refine ⟨Nat.pos_of_ne_zero hbatch, ?_, ?_⟩
  · exact
      { numbered := by simp
        bound := firstSequence.isLt
        next := by simp
        closed := fun hclosed ↦ nomatch hclosed
        queue := rfl
        popped_le := le_rfl
        expected := rfl
        sound := rfl }
  · exact
      { nextWritten := rfl
        nextDurable := rfl
        durable_le := le_rfl
        written_le := le_rfl
        writtenBytes := List.nil_prefix
        durableBytes := le_rfl
        flushed_le := le_rfl
        stored := List.nil_prefix
        running := fun _ ↦ ⟨rfl, rfl⟩
        terminal := fun hpoisoned ↦ nomatch hpoisoned
        stopping := fun hstopping ↦ nomatch hstopping
        fits := trivial
        complete := fun hcomplete ↦ nomatch hcomplete
        guard := rfl }

/-- What the sink and the status say about the accepted records. -/
structure Persisted (crc32c : Bytes → U32) (first : ℕ) (records : List JournalRecord) (system : System) :
    Prop where
  numbered : ∀ i record, records[i]? = some record →
    record.sequence.val = first + i ∧ record.verify crc32c = true
  next : ∀ writer ∈ system.writer, writer.nextSequence.val = first + records.length
  stored : system.sink.bytes <+: journalBytes records
  first_le : first ≤ system.channel.status.nextDurableSequence.val
  durable_le : system.channel.status.nextDurableSequence.val ≤
    system.channel.status.nextWrittenSequence.val
  written_le : system.channel.status.nextWrittenSequence.val ≤ first + records.length
  written : journalBytes (records.take (system.channel.status.nextWrittenSequence.val - first)) <+:
    system.sink.bytes
  durable : journalBytes (records.take (system.channel.status.nextDurableSequence.val - first)) <+:
    system.sink.bytes.take system.sink.flushed
  complete : system.channel.status.shutdownComplete = true →
    system.channel.status.producerClosed = true ∧ system.writer = none ∧
      system.sink.bytes = journalBytes records ∧ system.sink.flushed = system.sink.bytes.length ∧
      system.channel.status.nextWrittenSequence.val = first + records.length ∧
      system.channel.status.nextDurableSequence.val = first + records.length

theorem Coherent.persisted {system : System} {popped written durable : ℕ}
    (h : Coherent crc32c first records system popped written durable) :
    Persisted crc32c first records system := by
  obtain ⟨hlog, hstore⟩ := h
  have hnextWritten := hstore.nextWritten
  have hnextDurable := hstore.nextDurable
  have hdurable_le := hstore.durable_le
  have hwritten_le := hstore.written_le
  have hpopped_le := hlog.popped_le
  refine
    { numbered := hlog.numbered
      next := hlog.next
      stored := hstore.stored.trans (journalBytes_mono (List.take_prefix _ _))
      first_le := by omega
      durable_le := by omega
      written_le := by omega
      written := ?_
      durable := ?_
      complete := ?_ }
  · rw [hnextWritten, Nat.add_sub_cancel_left]
    exact hstore.writtenBytes
  · rw [hnextDurable, Nat.add_sub_cancel_left]
    have hlength : (journalBytes (records.take durable)).length = recordSize * durable := by
      rw [length_journalBytes, List.length_take, Nat.min_eq_left (by omega)]
    have hinitial : journalBytes (records.take durable) <+: system.sink.bytes :=
      (journalBytes_take_mono records hdurable_le).trans hstore.writtenBytes
    exact List.prefix_take_iff.mpr ⟨hinitial, hlength.trans_le hstore.durableBytes⟩
  · intro hcomplete
    obtain ⟨hclosed, hall, hdurable, hflushed, hbytes⟩ := hstore.complete hcomplete
    exact ⟨hclosed, hlog.closed hclosed, hbytes, hflushed, by omega, by omega⟩

/-- The protocol between writer and worker. In every interleaving over every sink, the sink holds a
prefix of the accepted records, the watermarks tell what it holds and only grow, a completed
shutdown has left nothing behind, and a failed worker writes nothing more. -/
theorem reaches_persisted {firstSequence : U64} {start system : System} {events : List Event}
    (hstart : System.start BATCH policy firstSequence = .ok start)
    (hreach : System.Reaches crc32c BATCH start events system) :
    Persisted crc32c firstSequence.val (recordsOf crc32c events) system ∧
      ∀ later system', System.Reaches crc32c BATCH system later system' →
        system.channel.status.nextWrittenSequence.val ≤ system'.channel.status.nextWrittenSequence.val ∧
          system.channel.status.nextDurableSequence.val ≤
            system'.channel.status.nextDurableSequence.val ∧
          (system.worker.poisoned = true → system'.sink = system.sink) := by
  obtain ⟨hbatch, hcoherent⟩ := System.start_eq_ok hstart
  obtain ⟨popped, written, durable, hreached, _, _⟩ := hcoherent.reaches hbatch hreach
  rw [List.nil_append] at hreached
  refine ⟨hreached.persisted, ?_⟩
  intro later system' hlater
  obtain ⟨popped', written', durable', hend, hwritten, hdurable⟩ := hreached.reaches hbatch hlater
  rw [hreached.store.nextWritten, hend.store.nextWritten, hreached.store.nextDurable, hend.store.nextDurable]
  refine ⟨Nat.add_le_add_left hwritten _, Nat.add_le_add_left hdurable _, fun hpoisoned ↦ ?_⟩
  exact (hlater.of_halted ⟨hpoisoned, hreached.store.terminal hpoisoned⟩).2.1

theorem reaches_persisted_after_short_write :
    ∃ start events system, System.start 1 .everyBatch 1 = .ok start ∧
      System.Reaches (fun _ ↦ 0) 1 start events system ∧ system.sink.bytes.length = 10 ∧
      Persisted (fun _ ↦ 0) 1 (recordsOf (fun _ ↦ 0) events) system := by
  have hstart : System.start 1 .everyBatch 1 = .ok ⟨some ⟨1⟩, ⟨[], JournalStatus.new 1⟩,
      ⟨⟨1, false, false⟩, .everyBatch, false, false, .idle⟩, ⟨[], 0⟩⟩ := rfl
  have hinitial : System.Reaches (fun _ ↦ 0) 1 ⟨some ⟨1⟩, ⟨[], JournalStatus.new 1⟩,
      ⟨⟨1, false, false⟩, .everyBatch, false, false, .idle⟩, ⟨[], 0⟩⟩ [] _ := .start
  have haccepted := hinitial.step (.enqueue [7]) rfl
  have hread := (haccepted.step .drainBatch rfl).step .advance rfl
  have hwritten := (hread.step .advance rfl).step (.write (.count 10 0)) rfl
  exact ⟨_, _, _, hstart, hwritten, by decide, (reaches_persisted hstart hwritten).1⟩

end Runs

end DeterministicExchange.Journal
