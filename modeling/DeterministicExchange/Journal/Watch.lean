import DeterministicExchange.Journal.Durability
import DeterministicExchange.Journal.Turns

/-!
# Watching the status

A status reader loads the five words of the published progress one at a time,
while writer and worker go on between any two loads. What it returns is still
consistent: it is the status of a moment in which the words that were loaded
had not yet changed, as far as the order of the words can tell.
-/

namespace DeterministicExchange.Journal

open Machine Codec

/-- Watermarks do not go back, and flags stay set. -/
structure JournalStatus.Precedes (status status' : JournalStatus) : Prop where
  written : status.nextWrittenSequence ≤ status'.nextWrittenSequence
  durable : status.nextDurableSequence ≤ status'.nextDurableSequence
  closed : status.producerClosed = true → status'.producerClosed = true
  poisoned : status.poisoned = true → status'.poisoned = true
  complete : status.shutdownComplete = true → status'.shutdownComplete = true

theorem JournalStatus.Precedes.refl (status : JournalStatus) : status.Precedes status :=
  ⟨le_rfl, le_rfl, id, id, id⟩

theorem JournalStatus.Precedes.trans {status status' status'' : JournalStatus} (h : status.Precedes status')
    (h' : status'.Precedes status'') : status.Precedes status'' :=
  ⟨h.written.trans h'.written, h.durable.trans h'.durable, h'.closed ∘ h.closed, h'.poisoned ∘ h.poisoned,
    h'.complete ∘ h.complete⟩

/-- A `snapshot` in progress, with the words that it has loaded. -/
inductive Loading where
  | idle
  | loadDurable (complete : Bool)
  | loadWritten (complete : Bool) (durable : U64)
  | loadClosed (complete : Bool) (durable written : U64)
  | loadPoisoned (complete : Bool) (durable written : U64) (closed : Bool)

/-- The next load of a `snapshot`, and what is returned after the last one. -/
def Loading.load (status : JournalStatus) : Loading → Option JournalStatus × Loading
  | .idle => (none, .loadDurable status.shutdownComplete)
  | .loadDurable complete => (none, .loadWritten complete status.nextDurableSequence)
  | .loadWritten complete durable => (none, .loadClosed complete durable status.nextWrittenSequence)
  | .loadClosed complete durable written =>
    (none, .loadPoisoned complete durable written status.producerClosed)
  | .loadPoisoned complete durable written closed =>
    (some ⟨written, durable, closed, status.poisoned, complete⟩, .idle)

/-- The snapshot that is returned if the words that are left to load stay as they are. -/
def Loading.finish (status : JournalStatus) : Loading → JournalStatus
  | .idle => status
  | .loadDurable complete => { status with shutdownComplete := complete }
  | .loadWritten complete durable =>
    { status with shutdownComplete := complete, nextDurableSequence := durable }
  | .loadClosed complete durable written =>
    { status with
      shutdownComplete := complete
      nextDurableSequence := durable
      nextWrittenSequence := written }
  | .loadPoisoned complete durable written closed =>
    { status with
      shutdownComplete := complete
      nextDurableSequence := durable
      nextWrittenSequence := written
      producerClosed := closed }

/-- The events of writer and worker, and the snapshots returned to one reader, under any interleaving. -/
inductive Watched (crc32c : Bytes → U32) (BATCH : ℕ) (start : System) :
    List Event → List JournalStatus → System → Loading → Prop where
  | start : Watched crc32c BATCH start [] [] start .idle
  | step {events : List Event} {seen : List JournalStatus} {system system' : System} {loading : Loading}
      {event : Event} (h : Watched crc32c BATCH start events seen system loading) (turn : Turn)
      (hstep : system.step crc32c BATCH turn = some (event, system')) :
      Watched crc32c BATCH start (events ++ [event]) seen system' loading
  | load {events : List Event} {seen : List JournalStatus} {system : System} {loading loading' : Loading}
      {returned : Option JournalStatus} (h : Watched crc32c BATCH start events seen system loading)
      (hload : loading.load system.channel.status = (returned, loading')) :
      Watched crc32c BATCH start events (seen ++ returned.toList) system loading'

theorem Watched.reaches {crc32c : Bytes → U32} {BATCH : ℕ} {start system : System} {events : List Event}
    {seen : List JournalStatus} {loading : Loading}
    (h : Watched crc32c BATCH start events seen system loading) :
    System.Reaches crc32c BATCH start events system := by
  induction h with
  | start => exact .start
  | step _ turn hstep ih => exact ih.step turn hstep
  | load _ _ ih => exact ih

/-! ## Flags stay set -/

namespace System

variable {crc32c : Bytes → U32} {BATCH : ℕ} {system system' : System} {event : Event}

theorem finishBatch_channel (system : System) (count : ℕ) :
    (system.finishBatch count).2.channel = system.channel := by
  unfold finishBatch
  split
  · split <;> rfl
  · rfl

theorem startWriting_channel (system : System) (batch : List RecordBytes) :
    (system.startWriting batch).2.channel = system.channel := by
  cases batch with
  | nil => exact finishBatch_channel system 0
  | cons record rest => rfl

theorem readNext_complete (system : System) (batch : List RecordBytes) :
    (system.readNext crc32c BATCH batch).2.channel.status.shutdownComplete =
      system.channel.status.shutdownComplete := by
  have hread : (system.worker.reader.read crc32c system.channel).2.2.status.shutdownComplete =
      system.channel.status.shutdownComplete := by
    obtain hstatus | hstatus := read_status system.worker.reader system.channel
    · rw [hstatus]
    · rw [hstatus]
      rfl
  unfold readNext
  split
  · split
    · next heq =>
      rw [heq] at hread
      exact hread
    · next heq =>
      rw [heq] at hread
      rw [startWriting_channel]
      exact hread
    · next heq =>
      rw [heq] at hread
      exact hread
  · rw [startWriting_channel]

theorem retire_complete (system : System) :
    system.retire.channel.status.shutdownComplete = system.channel.status.shutdownComplete := by
  unfold retire
  dsimp only
  split <;> rfl

/-- A shutdown that is published as complete stays so. -/
theorem step_complete {turn : Turn} (hstep : system.step crc32c BATCH turn = some (event, system'))
    (hcomplete : system.channel.status.shutdownComplete = true) :
    system'.channel.status.shutdownComplete = true := by
  have hkept {outcome : Event × System} (heq : some outcome = some (event, system'))
      (houtcome : outcome.2.channel.status.shutdownComplete = true) :
      system'.channel.status.shutdownComplete = true := by
    obtain rfl := Option.some.inj heq
    exact houtcome
  cases turn with
  | enqueue payload | close | dropWriter =>
    obtain ⟨writer, _, heq⟩ := Option.map_eq_some_iff.mp hstep
    exact hkept (congrArg some heq) hcomplete
  | drainBatch =>
    simp only [step, drainBatch] at hstep
    split at hstep
    · split at hstep
      · exact hkept hstep hcomplete
      · exact hkept hstep hcomplete
    · simp at hstep
  | shutdown =>
    simp only [step, shutdown] at hstep
    split at hstep
    · split at hstep
      · exact hkept hstep hcomplete
      split at hstep
      · exact hkept hstep hcomplete
      split at hstep
      · exact hkept hstep hcomplete
      · exact hkept hstep hcomplete
    · simp at hstep
  | intoSink =>
    simp only [step, intoSink] at hstep
    split at hstep
    · exact hkept hstep ((retire_complete system).trans hcomplete)
    · simp at hstep
  | dropWorker =>
    simp only [step, dropWorker] at hstep
    split at hstep
    · exact hkept hstep ((retire_complete system).trans hcomplete)
    · simp at hstep
  | advance =>
    simp only [step, advance] at hstep
    split at hstep
    · exact hkept hstep ((readNext_complete system _).trans hcomplete)
    · split at hstep
      · exact hkept hstep hcomplete
      · exact hkept hstep (by rwa [finishBatch_channel])
    · exact hkept hstep (by rwa [finishBatch_channel])
    · exact hkept hstep hcomplete
    · exact hkept hstep rfl
    · simp at hstep
  | write outcome =>
    simp only [step, write] at hstep
    split at hstep
    swap
    · simp at hstep
    split at hstep
    · split at hstep
      · exact hkept hstep hcomplete
      split at hstep
      · exact hkept hstep hcomplete
      · exact hkept hstep hcomplete
    · exact hkept hstep hcomplete
    · exact hkept hstep hcomplete
  | flush succeeds =>
    simp only [step, flush] at hstep
    split at hstep
    · split at hstep
      · exact hkept hstep hcomplete
      · exact hkept hstep hcomplete
    · split at hstep
      · exact hkept hstep hcomplete
      · exact hkept hstep hcomplete
    · simp at hstep

end System

/-! ## One turn -/

section Turns

variable {crc32c : Bytes → U32} {BATCH first : ℕ} {records : List JournalRecord} {system system' : System}
  {event : Event} {popped written durable : ℕ}

/-- No turn takes the published progress back. -/
theorem Coherent.precedes (hbatch : 0 < BATCH)
    (h : Coherent crc32c first records system popped written durable) {turn : Turn}
    (hstep : system.step crc32c BATCH turn = some (event, system')) :
    system.channel.status.Precedes system'.channel.status := by
  obtain ⟨_, _, _, hnext, hwritten, hdurable⟩ := h.step hbatch hstep
  have hflags : (system.channel.status.producerClosed = true → system'.channel.status.producerClosed = true) ∧
      (system.channel.status.poisoned = true → system'.channel.status.poisoned = true) := by
    cases turn with
    | enqueue payload | dropWriter =>
      obtain ⟨writer, _, heq⟩ := Option.map_eq_some_iff.mp hstep
      obtain ⟨_, rfl⟩ := Prod.ext_iff.mp heq
      exact ⟨id, id⟩
    | close =>
      obtain ⟨writer, _, heq⟩ := Option.map_eq_some_iff.mp hstep
      obtain ⟨_, rfl⟩ := Prod.ext_iff.mp heq
      exact ⟨fun _ ↦ rfl, id⟩
    | drainBatch | shutdown | intoSink | dropWorker | advance | write outcome | flush succeeds =>
      have hkept := (System.bystands_step ⟨_, rfl⟩ hstep).2
      exact ⟨fun hclosed ↦ hkept.closed.trans hclosed, hkept.poisoned⟩
  refine ⟨?_, ?_, hflags.1, hflags.2, System.step_complete hstep⟩
  · have hle : system.channel.status.nextWrittenSequence.val ≤
        system'.channel.status.nextWrittenSequence.val := by
      rw [h.store.nextWritten, hnext.store.nextWritten]
      exact Nat.add_le_add_left hwritten first
    exact hle
  · have hle : system.channel.status.nextDurableSequence.val ≤
        system'.channel.status.nextDurableSequence.val := by
      rw [h.store.nextDurable, hnext.store.nextDurable]
      exact Nat.add_le_add_left hdurable first
    exact hle

/-- After a completed shutdown no record is accepted. -/
theorem Coherent.record?_of_complete (h : Coherent crc32c first records system popped written durable)
    (hcomplete : system.channel.status.shutdownComplete = true) {turn : Turn}
    (hstep : system.step crc32c BATCH turn = some (event, system')) : event.record? crc32c = none := by
  have hwriter : system.writer = none := h.log.closed (h.store.complete hcomplete).1
  cases turn with
  | enqueue payload | close | dropWriter =>
    obtain ⟨writer, hsome, _⟩ := Option.map_eq_some_iff.mp hstep
    rw [hwriter] at hsome
    cases hsome
  | drainBatch | shutdown | intoSink | dropWorker | advance | write outcome | flush succeeds =>
    exact (System.bystands_step ⟨_, rfl⟩ hstep).1

end Turns

/-! ## A snapshot in progress -/

/-- A status that could be read at once, with `count` records accepted in the end. -/
structure JournalStatus.Consistent (first count : ℕ) (status : JournalStatus) : Prop where
  durable_le : status.nextDurableSequence ≤ status.nextWrittenSequence
  complete : status.shutdownComplete = true → status.producerClosed = true ∧
    status.nextWrittenSequence.val = first + count ∧ status.nextDurableSequence.val = first + count

namespace Loading

variable {status status' : JournalStatus} {loading loading' : Loading} {returned : JournalStatus}

theorem finish_precedes (h : status.Precedes status') (loading : Loading) :
    (loading.finish status).Precedes (loading.finish status') := by
  cases loading with
  | idle => exact h
  | loadDurable => exact { h with complete := id }
  | loadWritten => exact { h with complete := id, durable := le_rfl }
  | loadClosed => exact { h with complete := id, durable := le_rfl, written := le_rfl }
  | loadPoisoned => exact { h with complete := id, durable := le_rfl, written := le_rfl, closed := id }

/-- A load that does not end the snapshot keeps what it would return. -/
theorem finish_of_load (h : loading.load status = (none, loading')) :
    loading'.finish status = loading.finish status := by
  cases loading with
  | loadPoisoned => simp [load] at h
  | idle | loadDurable | loadWritten | loadClosed =>
    obtain rfl := (Prod.mk.inj h).2
    rfl

/-- The last load returns it. -/
theorem load_eq_some (h : loading.load status = (some returned, loading')) :
    returned = loading.finish status ∧ loading' = .idle := by
  cases loading with
  | idle | loadDurable | loadWritten | loadClosed => simp [load] at h
  | loadPoisoned =>
    obtain ⟨hreturned, rfl⟩ := Prod.mk.inj h
    exact ⟨(Option.some.inj hreturned).symm, rfl⟩

/-- The poison flag is loaded last. -/
theorem load_poisoned (h : loading.load status = (some returned, loading')) :
    returned.poisoned = status.poisoned := by
  cases loading with
  | idle | loadDurable | loadWritten | loadClosed => simp [load] at h
  | loadPoisoned =>
    obtain ⟨hreturned, _⟩ := Prod.mk.inj h
    rw [← Option.some.inj hreturned]

end Loading

/-- The snapshots of a reader, the one in progress and the published progress, in this order. -/
structure Watch (crc32c : Bytes → U32) (first : ℕ) (records : List JournalRecord) (seen : List JournalStatus)
    (system : System) (loading : Loading) : Prop where
  coherent : ∃ popped written durable, Coherent crc32c first records system popped written durable
  ahead : (loading.finish system.channel.status).Precedes system.channel.status
  past : ∀ status ∈ seen, status.Precedes (loading.finish system.channel.status)
  pairwise : seen.Pairwise JournalStatus.Precedes
  present : (loading.finish system.channel.status).Consistent first records.length
  consistent : ∀ status ∈ seen, status.Consistent first records.length

namespace Watch

variable {crc32c : Bytes → U32} {BATCH first : ℕ} {records : List JournalRecord} {seen : List JournalStatus}
  {system system' : System} {loading loading' : Loading} {event : Event}

theorem of_consistent {status : JournalStatus} {popped written durable : ℕ}
    (h : Coherent crc32c first records system popped written durable)
    (hstatus : system.channel.status = status) : status.Consistent first records.length := by
  subst hstatus
  have hpersisted := h.persisted
  refine ⟨hpersisted.durable_le, fun hcomplete ↦ ?_⟩
  obtain ⟨hclosed, _, _, _, hwritten, hdurable⟩ := hpersisted.complete hcomplete
  exact ⟨hclosed, hwritten, hdurable⟩

theorem start {popped written durable : ℕ}
    (h : Coherent crc32c first records system popped written durable) :
    Watch crc32c first records [] system .idle where
  coherent := ⟨popped, written, durable, h⟩
  ahead := .refl _
  past := by simp
  pairwise := .nil
  present := of_consistent h rfl
  consistent := by simp

/-- A load adds the snapshot in progress to those returned, or goes on with it. -/
theorem load (h : Watch crc32c first records seen system loading) {returned : Option JournalStatus}
    (hload : loading.load system.channel.status = (returned, loading')) :
    Watch crc32c first records (seen ++ returned.toList) system loading' := by
  cases returned with
  | none =>
    rw [Option.toList_none, List.append_nil]
    have hfinish := Loading.finish_of_load hload
    exact ⟨h.coherent, hfinish ▸ h.ahead, hfinish ▸ h.past, h.pairwise, hfinish ▸ h.present, h.consistent⟩
  | some status =>
    obtain ⟨rfl, rfl⟩ := Loading.load_eq_some hload
    obtain ⟨popped, written, durable, hcoherent⟩ := h.coherent
    refine ⟨h.coherent, .refl _, fun status hmem ↦ ?_, ?_, of_consistent hcoherent rfl, fun status hmem ↦ ?_⟩
    · obtain hmem | hmem := List.mem_append.mp hmem
      · exact (h.past status hmem).trans h.ahead
      · obtain rfl := List.mem_singleton.mp hmem
        exact h.ahead
    · refine List.pairwise_append.mpr ⟨h.pairwise, List.pairwise_singleton _ _,
        fun status hmem other hother ↦ ?_⟩
      obtain rfl := List.mem_singleton.mp hother
      exact h.past status hmem
    · obtain hmem | hmem := List.mem_append.mp hmem
      · exact h.consistent status hmem
      · obtain rfl := List.mem_singleton.mp hmem
        exact h.present

/-- What a snapshot in progress returns stays consistent while the progress goes on. -/
theorem consistent_of_precedes {status status' : JournalStatus} {count count' : ℕ}
    (hnow : (loading.finish status).Consistent first count) (hgrows : status.Precedes status')
    (hahead : (loading.finish status).Precedes status)
    (hnext : status'.Consistent first count')
    (hcount : status.shutdownComplete = true → count' = count) :
    (loading.finish status').Consistent first count' := by
  obtain ⟨hle, hcomplete⟩ := hnow
  cases loading with
  | idle => exact hnext
  | loadDurable complete =>
    exact ⟨hnext.durable_le, fun hset ↦ hnext.complete (hgrows.complete (hahead.complete hset))⟩
  | loadWritten complete durable =>
    refine ⟨hle.trans hgrows.written, fun hset ↦ ?_⟩
    have hset' := hahead.complete hset
    obtain ⟨hclosed, hwritten, _⟩ := hnext.complete (hgrows.complete hset')
    rw [hcount hset'] at hwritten ⊢
    exact ⟨hclosed, hwritten, (hcomplete hset).2.2⟩
  | loadClosed complete durable written =>
    refine ⟨hle, fun hset ↦ ?_⟩
    have hset' := hahead.complete hset
    rw [hcount hset']
    exact ⟨(hnext.complete (hgrows.complete hset')).1, (hcomplete hset).2⟩
  | loadPoisoned complete durable written closed =>
    refine ⟨hle, fun hset ↦ ?_⟩
    rw [hcount (hahead.complete hset)]
    exact hcomplete hset

theorem step (hbatch : 0 < BATCH) (h : Watch crc32c first records seen system loading) {turn : Turn}
    (hstep : system.step crc32c BATCH turn = some (event, system')) :
    Watch crc32c first (records ++ (event.record? crc32c).toList) seen system' loading := by
  obtain ⟨popped, written, durable, hcoherent⟩ := h.coherent
  obtain ⟨popped', written', durable', hnext, _⟩ := hcoherent.step hbatch hstep
  have hgrows := hcoherent.precedes hbatch hstep
  have hsame (hcomplete : system.channel.status.shutdownComplete = true) :
      (records ++ (event.record? crc32c).toList).length = records.length := by
    rw [hcoherent.record?_of_complete hcomplete hstep, Option.toList_none, List.append_nil]
  have hfinish := Loading.finish_precedes hgrows loading
  refine ⟨⟨popped', written', durable', hnext⟩, ?_, fun status hmem ↦ (h.past status hmem).trans hfinish,
    h.pairwise, consistent_of_precedes h.present hgrows h.ahead (of_consistent hnext rfl) hsame,
    fun status hmem ↦ ⟨(h.consistent status hmem).durable_le, fun hset ↦ ?_⟩⟩
  · have hahead := h.ahead
    cases loading with
    | idle => exact .refl _
    | loadDurable =>
      exact { JournalStatus.Precedes.refl _ with complete := hgrows.complete ∘ hahead.complete }
    | loadWritten =>
      exact { JournalStatus.Precedes.refl _ with
        complete := hgrows.complete ∘ hahead.complete
        durable := hahead.durable.trans hgrows.durable }
    | loadClosed =>
      exact { JournalStatus.Precedes.refl _ with
        complete := hgrows.complete ∘ hahead.complete
        durable := hahead.durable.trans hgrows.durable
        written := hahead.written.trans hgrows.written }
    | loadPoisoned =>
      exact { JournalStatus.Precedes.refl _ with
        complete := hgrows.complete ∘ hahead.complete
        durable := hahead.durable.trans hgrows.durable
        written := hahead.written.trans hgrows.written
        closed := hgrows.closed ∘ hahead.closed }
  · rw [hsame (h.ahead.complete ((h.past status hmem).complete hset))]
    exact (h.consistent status hmem).complete hset

end Watch

theorem Watched.watch {crc32c : Bytes → U32} {BATCH first : ℕ} (hbatch : 0 < BATCH) {start system : System}
    (hstart : Coherent crc32c first [] start 0 0 0) {events : List Event} {seen : List JournalStatus}
    {loading : Loading} (h : Watched crc32c BATCH start events seen system loading) :
    Watch crc32c first (recordsOf crc32c events) seen system loading := by
  induction h with
  | start => exact .start hstart
  | step _ turn hstep ih =>
    rw [recordsOf_concat]
    exact ih.step hbatch hstep
  | load _ hload ih => exact ih.load hload

/-- The snapshots of a status reader, over every interleaving of its loads with writer and worker. While
the writer is there, its next sequence is the first one and the number of accepted records. -/
theorem snapshots_consistent {crc32c : Bytes → U32} {BATCH : ℕ} {policy : FlushPolicy} {firstSequence : U64}
    {start system : System} (hstart : System.start BATCH policy firstSequence = .ok start)
    {events : List Event} {seen : List JournalStatus} {loading : Loading}
    (h : Watched crc32c BATCH start events seen system loading) :
    (∀ writer ∈ system.writer,
      writer.nextSequence.val = firstSequence.val + (recordsOf crc32c events).length) ∧
    (∀ status ∈ seen, status.nextDurableSequence ≤ status.nextWrittenSequence ∧
      (status.shutdownComplete = true → status.producerClosed = true ∧
        status.nextWrittenSequence.val = firstSequence.val + (recordsOf crc32c events).length ∧
        status.nextDurableSequence.val = firstSequence.val + (recordsOf crc32c events).length)) ∧
    seen.Pairwise JournalStatus.Precedes := by
  obtain ⟨hbatch, hcoherent⟩ := System.start_eq_ok hstart
  have hwatch := h.watch hbatch hcoherent
  obtain ⟨popped, written, durable, hnow⟩ := hwatch.coherent
  exact ⟨hnow.persisted.next, fun status hmem ↦ ⟨(hwatch.consistent status hmem).durable_le,
    (hwatch.consistent status hmem).complete⟩, hwatch.pairwise⟩

/-- Between the loads of the two watermarks the worker publishes a record. -/
theorem snapshots_consistent_during_batch :
    ∃ start events system status, System.start 1 .everyBatch 1 = .ok start ∧
      Watched (fun _ ↦ 0) 1 start events [status] system .idle ∧ status.nextWrittenSequence = 2 ∧
      status.nextDurableSequence ≤ status.nextWrittenSequence := by
  have hstart : System.start 1 .everyBatch 1 = .ok ⟨some ⟨1⟩, ⟨[], JournalStatus.new 1⟩,
      ⟨⟨1, false, false⟩, .everyBatch, false, false, .idle⟩, ⟨[], 0⟩⟩ := rfl
  have hinitial : Watched (fun _ ↦ 0) 1 ⟨some ⟨1⟩, ⟨[], JournalStatus.new 1⟩,
      ⟨⟨1, false, false⟩, .everyBatch, false, false, .idle⟩, ⟨[], 0⟩⟩ [] [] _ .idle := .start
  have hloads := (hinitial.load (show _ = (none, _) from rfl)).load (show _ = (none, _) from rfl)
  have haccepted := hloads.step (.enqueue [7]) rfl
  have hread := ((haccepted.step .drainBatch rfl).step .advance rfl).step .advance rfl
  have hpublished := (hread.step (.write (.count 64 0)) rfl).step .advance rfl
  have hseen := ((hpublished.load (show _ = (none, _) from rfl)).load (show _ = (none, _) from rfl)).load
    (show _ = (some _, _) from rfl)
  exact ⟨_, _, _, _, hstart, hseen, rfl, ((snapshots_consistent hstart hseen).2.1 _ (by simp)).1⟩

end DeterministicExchange.Journal
