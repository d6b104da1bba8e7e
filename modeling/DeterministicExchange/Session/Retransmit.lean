import DeterministicExchange.Container.Padded
import DeterministicExchange.Types

/-!
# Retransmission buffer

The retention window of `hft-session`: accepted frames stay in order until the
peer confirms them. On every history of calls the window is contiguous, fits its
capacity and loses no frame that was not confirmed.
-/

namespace DeterministicExchange.Session

open Machine

def maxFrame : ℕ := 46

structure RetainedFrame where
  sequence : SequenceNumber
  bytes : Vector U8 maxFrame
  len : ℕ
  deriving DecidableEq

inductive RetainError where
  | full
  | notInOrder (expected received : SequenceNumber)
  | sequenceOverflow
  deriving DecidableEq, Repr

/-- The oldest frame is at the head of `entries`. -/
structure RetransmitBuffer where
  entries : List RetainedFrame
  capacity : ℕ
  nextSequence : U64
  deriving DecidableEq

def RetainedFrame.slice (frame : RetainedFrame) : Run (List U8) := Run.sliceTo frame.bytes frame.len

namespace RetransmitBuffer

def new (capacity : ℕ) : RetransmitBuffer := ⟨[], capacity, 1⟩

def retain (buffer : RetransmitBuffer) (sequence : SequenceNumber) (bytes : List U8) :
    Except RetainError Unit × RetransmitBuffer :=
  if maxFrame < bytes.length then (.error .full, buffer)
  else if sequence ≠ buffer.nextSequence then (.error (.notInOrder buffer.nextSequence sequence), buffer)
  else if buffer.entries.length = buffer.capacity then (.error .full, buffer)
  else
    match Unsigned.checkedAdd sequence 1 with
    | none => (.error .sequenceOverflow, buffer)
    | some nextSequence =>
      (.ok (), { buffer with
        entries := buffer.entries ++ [⟨sequence, pad maxFrame 0 bytes, bytes.length⟩]
        nextSequence := nextSequence })

/-- Pops the frames up to `confirmed` and counts them. -/
def popConfirmed (confirmed : U64) : List RetainedFrame → ℕ × List RetainedFrame
  | [] => (0, [])
  | frame :: entries =>
    if frame.sequence ≤ confirmed then
      let (dropped, entries) := popConfirmed confirmed entries
      (dropped + 1, entries)
    else (0, frame :: entries)

def confirmThrough (buffer : RetransmitBuffer) (confirmed : U64) : ℕ × RetransmitBuffer :=
  let (dropped, entries) := popConfirmed confirmed buffer.entries
  (dropped, { buffer with entries := entries })

def since (buffer : RetransmitBuffer) (start : U64) : List RetainedFrame :=
  buffer.entries.filter fun frame ↦ start ≤ frame.sequence

def remainingCapacity (buffer : RetransmitBuffer) : Run ℕ := Run.sub buffer.capacity buffer.entries.length

end RetransmitBuffer

/-- The calls that change a buffer, with what they return. -/
inductive RetentionCall where
  | retain (sequence : SequenceNumber) (bytes : List U8) (result : Except RetainError Unit)
  | confirmThrough (confirmed : U64) (dropped : ℕ)

/-- The calls made on a new buffer, in order, and the buffer they lead to. -/
inductive Retention (capacity : ℕ) : List RetentionCall → RetransmitBuffer → Prop where
  | new : Retention capacity [] (.new capacity)
  | retain {calls : List RetentionCall} {buffer buffer' : RetransmitBuffer}
    (h : Retention capacity calls buffer)
      {sequence : SequenceNumber} {bytes : List U8} {result : Except RetainError Unit}
      (hcall : buffer.retain sequence bytes = (result, buffer')) :
      Retention capacity (calls ++ [.retain sequence bytes result]) buffer'
  | confirmThrough {calls : List RetentionCall} {buffer buffer' : RetransmitBuffer}
      (h : Retention capacity calls buffer) {confirmed : U64} {dropped : ℕ}
      (hcall : buffer.confirmThrough confirmed = (dropped, buffer')) :
      Retention capacity (calls ++ [.confirmThrough confirmed dropped]) buffer'

def RetentionCall.accepted? : RetentionCall → Option (SequenceNumber × List U8)
  | .retain sequence bytes (.ok ()) => some (sequence, bytes)
  | _ => none

/-- The frames that a history has accepted. -/
def acceptedFrames (calls : List RetentionCall) : List (SequenceNumber × List U8) :=
  calls.filterMap RetentionCall.accepted?

namespace RetransmitBuffer

variable {buffer buffer' : RetransmitBuffer} {sequence : SequenceNumber} {bytes : List U8}

/-! ## What a call does -/

theorem retain_eq_error {error : RetainError} (h : buffer.retain sequence bytes = (.error error, buffer')) :
    buffer' = buffer ∧ (maxFrame < bytes.length ∨ sequence ≠ buffer.nextSequence ∨
      buffer.entries.length = buffer.capacity ∨ sequence.val = 2 ^ 64 - 1) := by
  unfold retain at h
  split at h
  · next hlong => exact ⟨(Prod.mk.inj h).2.symm, .inl hlong⟩
  split at h
  · next horder => exact ⟨(Prod.mk.inj h).2.symm, .inr (.inl horder)⟩
  split at h
  · next hfull => exact ⟨(Prod.mk.inj h).2.symm, .inr (.inr (.inl hfull))⟩
  split at h
  · next hoverflow =>
    have hlast := Unsigned.checkedAdd_eq_none.mp hoverflow
    have hone : (1 : U64).val = 1 := rfl
    have hlt := sequence.isLt
    exact ⟨(Prod.mk.inj h).2.symm, .inr (.inr (.inr (by omega)))⟩
  · simp at h

theorem retain_eq_ok (h : buffer.retain sequence bytes = (.ok (), buffer')) :
    bytes.length ≤ maxFrame ∧ sequence = buffer.nextSequence ∧ buffer.entries.length ≠ buffer.capacity ∧
      buffer'.capacity = buffer.capacity ∧ buffer'.nextSequence.val = sequence.val + 1 ∧
      buffer'.entries = buffer.entries ++ [⟨sequence, pad maxFrame 0 bytes, bytes.length⟩] := by
  unfold retain at h
  split at h
  · simp at h
  next hlong =>
  split at h
  · simp at h
  next horder =>
  split at h
  · simp at h
  next hfull =>
  split at h
  · simp at h
  next nextSequence hnext =>
  obtain rfl := (Prod.mk.inj h).2
  exact ⟨not_lt.mp hlong, not_not.mp horder, hfull, rfl, (Unsigned.checkedAdd_eq_some.mp hnext).symm, rfl⟩

/-- A frame is refused exactly when it is too long, out of order, or has no room or no successor. -/
theorem retain_error_iff :
    (∃ error, (buffer.retain sequence bytes).1 = .error error) ↔ maxFrame < bytes.length ∨
      sequence ≠ buffer.nextSequence ∨ buffer.entries.length = buffer.capacity ∨
        sequence.val = 2 ^ 64 - 1 := by
  rcases hcall : buffer.retain sequence bytes with ⟨result, buffer'⟩
  cases result with
  | error error => exact iff_of_true ⟨error, rfl⟩ (retain_eq_error hcall).2
  | ok =>
    obtain ⟨hlong, horder, hfull, _, hnext, _⟩ := retain_eq_ok hcall
    have hlt := buffer'.nextSequence.isLt
    refine iff_of_false (by simp) ?_
    rintro (hlong' | horder' | hfull' | hlast)
    · exact absurd hlong (not_le.mpr hlong')
    · exact horder' horder
    · exact hfull hfull'
    · omega

/-- The frames that are popped were confirmed; what stays is the rest. -/
theorem popConfirmed_spec (confirmed : U64) (entries : List RetainedFrame) :
    ∃ popped, entries = popped ++ (popConfirmed confirmed entries).2 ∧
      (popConfirmed confirmed entries).1 = popped.length ∧ ∀ frame ∈ popped, frame.sequence ≤ confirmed := by
  induction entries with
  | nil => exact ⟨[], rfl, rfl, by simp⟩
  | cons frame entries ih =>
    unfold popConfirmed
    split
    · next hle =>
      obtain ⟨popped, hentries, hcount, hpopped⟩ := ih
      exact ⟨frame :: popped, congrArg (frame :: ·) hentries, congrArg (· + 1) hcount,
        List.forall_mem_cons.mpr ⟨hle, hpopped⟩⟩
    · exact ⟨[], rfl, rfl, by simp⟩

end RetransmitBuffer

/-! ## The window -/

/-- The sequence and the content of a retained frame. -/
def RetainedFrame.content (frame : RetainedFrame) : SequenceNumber × List U8 :=
  (frame.sequence, frame.bytes.toList.take frame.len)

/-- The frames that a history has accepted are numbered from one; the last of them are retained, and none is
missing that was not confirmed. -/
structure Window (capacity : ℕ) (calls : List RetentionCall) (buffer : RetransmitBuffer) : Prop where
  capacity_eq : buffer.capacity = capacity
  fits : buffer.entries.length ≤ capacity
  numbered : (acceptedFrames calls).map (fun frame ↦ frame.1.val) =
    List.range' 1 (acceptedFrames calls).length
  next : buffer.nextSequence.val = 1 + (acceptedFrames calls).length
  suffix : buffer.entries.map RetainedFrame.content <:+ acceptedFrames calls
  len_le : ∀ frame ∈ buffer.entries, frame.len ≤ maxFrame
  kept : ∀ earlier sequence bytes later, calls = earlier ++ [.retain sequence bytes (.ok ())] ++ later →
    (∀ confirmed dropped, .confirmThrough confirmed dropped ∈ later → confirmed < sequence) →
      ∃ frame ∈ buffer.entries, frame.sequence = sequence

theorem acceptedFrames_concat (calls : List RetentionCall) (call : RetentionCall) :
    acceptedFrames (calls ++ [call]) = acceptedFrames calls ++ call.accepted?.toList := by
  unfold acceptedFrames
  rw [List.filterMap_append]
  cases haccepted : call.accepted? <;> simp [haccepted]

/-- An accepted frame of a longer history is its last call or one before. -/
theorem concat_eq_split {calls earlier later : List RetentionCall} {call retained : RetentionCall}
    (h : calls ++ [call] = earlier ++ [retained] ++ later) :
    later = [] ∧ call = retained ∨
      ∃ later', later = later' ++ [call] ∧ calls = earlier ++ [retained] ++ later' := by
  obtain rfl | ⟨later', last, rfl⟩ := later.eq_nil_or_concat'
  · rw [List.append_nil] at h
    exact .inl ⟨rfl, List.singleton_inj.mp (List.append_inj' h rfl).2⟩
  · rw [← List.append_assoc] at h
    obtain ⟨hcalls, hlast⟩ := List.append_inj' h rfl
    obtain rfl := List.singleton_inj.mp hlast
    exact .inr ⟨later', rfl, hcalls⟩

namespace Window

variable {capacity : ℕ} {calls : List RetentionCall} {buffer buffer' : RetransmitBuffer}

theorem new (capacity : ℕ) : Window capacity [] (.new capacity) where
  capacity_eq := rfl
  fits := Nat.zero_le _
  numbered := rfl
  next := rfl
  suffix := List.nil_suffix
  len_le := by simp [RetransmitBuffer.new]
  kept _ _ _ _ h := by simp at h

/-- A frame that is accepted becomes the newest of the window. -/
theorem retain (h : Window capacity calls buffer) {sequence : SequenceNumber} {bytes : List U8}
    (hcall : buffer.retain sequence bytes = (.ok (), buffer')) :
    Window capacity (calls ++ [.retain sequence bytes (.ok ())]) buffer' := by
  obtain ⟨hlong, rfl, hfull, hcapacity, hnext, hentries⟩ := RetransmitBuffer.retain_eq_ok hcall
  have haccepted : acceptedFrames (calls ++ [.retain buffer.nextSequence bytes (.ok ())]) =
      acceptedFrames calls ++ [(buffer.nextSequence, bytes)] := acceptedFrames_concat _ _
  have hcontent : RetainedFrame.content ⟨buffer.nextSequence, pad maxFrame 0 bytes, bytes.length⟩ =
      (buffer.nextSequence, bytes) := by
    unfold RetainedFrame.content
    rw [take_toList_pad 0 hlong]
  refine ⟨hcapacity.trans h.capacity_eq, ?_, ?_, ?_, ?_, ?_, ?_⟩
  · have hlt := lt_of_le_of_ne h.fits (h.capacity_eq ▸ hfull)
    rw [hentries, List.length_append]
    exact hlt
  · rw [haccepted, List.map_append, h.numbered, List.length_append, List.length_singleton, List.range'_concat,
      List.map_singleton, h.next]
    simp
  · rw [haccepted, hnext, h.next, List.length_append]
    rfl
  · rw [haccepted, hentries, List.map_append, List.map_singleton, hcontent]
    exact (List.suffix_append_inj_of_length_eq rfl).mpr ⟨h.suffix, rfl⟩
  · rw [hentries]
    intro frame hmem
    obtain hmem | hmem := List.mem_append.mp hmem
    · exact h.len_le frame hmem
    · rw [List.mem_singleton.mp hmem]
      exact hlong
  · intro earlier sequence bytes' later hsplit hconfirmed
    rw [hentries]
    obtain ⟨_, hlast⟩ | ⟨later', rfl, hcalls⟩ := concat_eq_split hsplit
    · obtain ⟨rfl, _⟩ := RetentionCall.retain.inj hlast
      exact ⟨_, List.mem_append_right _ (List.mem_singleton_self _), rfl⟩
    · obtain ⟨frame, hmem, hsequence⟩ :=
        h.kept earlier sequence bytes' later' hcalls fun confirmed dropped hmem ↦
        hconfirmed confirmed dropped (List.mem_append_left _ hmem)
      exact ⟨frame, List.mem_append_left _ hmem, hsequence⟩

/-- A call that accepts no frame and leaves a suffix of the window that keeps what was not confirmed. -/
theorem of_suffix (h : Window capacity calls buffer) {call : RetentionCall}
    (haccepted : call.accepted? = none)
    (hcapacity : buffer'.capacity = buffer.capacity) (hnext : buffer'.nextSequence = buffer.nextSequence)
    (hsuffix : buffer'.entries <:+ buffer.entries)
    (hkept : ∀ frame ∈ buffer.entries,
      (∀ confirmed dropped, call = .confirmThrough confirmed dropped → confirmed < frame.sequence) →
        frame ∈ buffer'.entries) :
    Window capacity (calls ++ [call]) buffer' := by
  have hsame : acceptedFrames (calls ++ [call]) = acceptedFrames calls := by
    rw [acceptedFrames_concat, haccepted, Option.toList_none, List.append_nil]
  refine ⟨hcapacity.trans h.capacity_eq, hsuffix.length_le.trans h.fits, ?_, ?_, ?_, ?_, ?_⟩
  · rw [hsame]
    exact h.numbered
  · rw [hsame, hnext]
    exact h.next
  · rw [hsame]
    exact (hsuffix.map _).trans h.suffix
  · exact fun frame hmem ↦ h.len_le frame (hsuffix.subset hmem)
  · intro earlier sequence bytes later hsplit hconfirmed
    obtain ⟨_, rfl⟩ | ⟨later', rfl, hcalls⟩ := concat_eq_split hsplit
    · simp [RetentionCall.accepted?] at haccepted
    · obtain ⟨frame, hmem, rfl⟩ := h.kept earlier sequence bytes later' hcalls fun confirmed dropped hmem ↦
        hconfirmed confirmed dropped (List.mem_append_left _ hmem)
      refine ⟨frame, hkept frame hmem fun confirmed dropped hcall ↦ ?_, rfl⟩
      exact hconfirmed confirmed dropped (List.mem_append_right _ (List.mem_singleton.mpr hcall.symm))

theorem refuse (h : Window capacity calls buffer) {sequence : SequenceNumber} {bytes : List U8}
    {error : RetainError} (hcall : buffer.retain sequence bytes = (.error error, buffer')) :
    Window capacity (calls ++ [.retain sequence bytes (.error error)]) buffer' := by
  obtain ⟨rfl, _⟩ := RetransmitBuffer.retain_eq_error hcall
  exact h.of_suffix rfl rfl rfl (List.suffix_refl _) fun frame hmem _ ↦ hmem

theorem confirmThrough (h : Window capacity calls buffer) {confirmed : U64} {dropped : ℕ}
    (hcall : buffer.confirmThrough confirmed = (dropped, buffer')) :
    Window capacity (calls ++ [.confirmThrough confirmed dropped]) buffer' := by
  obtain ⟨popped, hentries, _, hpopped⟩ := RetransmitBuffer.popConfirmed_spec confirmed buffer.entries
  obtain ⟨rfl, rfl⟩ := Prod.mk.inj hcall
  refine h.of_suffix rfl rfl rfl ⟨popped, hentries.symm⟩ fun frame hmem hlater ↦ ?_
  rw [hentries] at hmem
  obtain hmem | hmem := List.mem_append.mp hmem
  · exact absurd (hpopped frame hmem) (not_le.mpr (hlater _ _ rfl))
  · exact hmem

end Window

theorem Retention.window {capacity : ℕ} {calls : List RetentionCall} {buffer : RetransmitBuffer}
    (h : Retention capacity calls buffer) : Window capacity calls buffer := by
  induction h with
  | new => exact .new capacity
  | @retain _ _ _ _ _ _ result hcall ih =>
    cases result with
    | error error => exact ih.refuse hcall
    | ok => exact ih.retain hcall
  | confirmThrough _ hcall ih => exact ih.confirmThrough hcall

namespace Window

variable {capacity : ℕ} {calls : List RetentionCall} {buffer : RetransmitBuffer}

/-- The retained sequences run up to the next one. -/
theorem consecutive (h : Window capacity calls buffer) :
    ∃ first, buffer.entries.map (fun frame ↦ frame.sequence.val) = List.range' first buffer.entries.length ∧
      first + buffer.entries.length = buffer.nextSequence.val := by
  obtain ⟨dropped, hsuffix⟩ := h.suffix
  have hnumbered := h.numbered
  have hnext := h.next
  rw [← hsuffix, List.length_append, List.length_map] at hnumbered hnext
  rw [List.map_append, List.map_map, ← List.range'_append] at hnumbered
  obtain ⟨_, hretained⟩ := List.append_inj hnumbered (by simp)
  exact ⟨1 + 1 * dropped.length, hretained, by omega⟩

/-- A retained frame is the one that was accepted under its sequence. -/
theorem content_iff (h : Window capacity calls buffer) {frame : RetainedFrame} (hmem : frame ∈ buffer.entries)
    (bytes : List U8) : frame.slice = .ok bytes ↔ (frame.sequence, bytes) ∈ acceptedFrames calls := by
  unfold RetainedFrame.slice
  rw [Run.sliceTo_of_le _ (h.len_le frame hmem), Except.ok.injEq]
  have hcontent : frame.content ∈ acceptedFrames calls := h.suffix.subset (List.mem_map_of_mem hmem)
  constructor
  · rintro rfl
    exact hcontent
  · intro haccepted
    have hnodup : ((acceptedFrames calls).map fun frame ↦ frame.1.val).Nodup := by
      rw [h.numbered]
      exact List.nodup_range'
    exact (Prod.mk.inj (List.inj_on_of_nodup_map hnodup hcontent haccepted rfl)).2

/-- What is sent again from `start` on. -/
theorem since_spec (h : Window capacity calls buffer) (start : U64) :
    (buffer.since start).Pairwise (fun frame later ↦ frame.sequence < later.sequence) ∧
      ∀ frame, frame ∈ buffer.since start ↔ frame ∈ buffer.entries ∧ start ≤ frame.sequence := by
  obtain ⟨first, hconsecutive, _⟩ := h.consecutive
  have hsorted : buffer.entries.Pairwise fun frame later ↦ frame.sequence < later.sequence := by
    have hrange : (buffer.entries.map fun frame ↦ frame.sequence.val).Pairwise (· < ·) := by
      rw [hconsecutive]
      exact List.pairwise_lt_range'
    rwa [List.pairwise_map] at hrange
  exact ⟨hsorted.filter _, fun frame ↦ by simp [RetransmitBuffer.since]⟩

end Window

/-- The window of a retransmission buffer, over every history of its calls. -/
theorem retention_window {capacity : ℕ} {calls : List RetentionCall} {buffer : RetransmitBuffer}
    (h : Retention capacity calls buffer) :
    (∃ first, buffer.entries.map (fun frame ↦ frame.sequence.val) = List.range' first buffer.entries.length ∧
      first + buffer.entries.length = buffer.nextSequence.val) ∧
    buffer.entries.length ≤ capacity ∧
    buffer.remainingCapacity = .ok (capacity - buffer.entries.length) ∧
    (∀ frame ∈ buffer.entries, ∀ bytes,
      frame.slice = .ok bytes ↔ (frame.sequence, bytes) ∈ acceptedFrames calls) ∧
    (∀ earlier sequence bytes later, calls = earlier ++ [.retain sequence bytes (.ok ())] ++ later →
      (∀ confirmed dropped, .confirmThrough confirmed dropped ∈ later → confirmed < sequence) →
        ∃ frame ∈ buffer.entries, frame.sequence = sequence ∧ frame.slice = .ok bytes) ∧
    (∀ start, (buffer.since start).Pairwise (fun frame later ↦ frame.sequence < later.sequence) ∧
      ∀ frame, frame ∈ buffer.since start ↔ frame ∈ buffer.entries ∧ start ≤ frame.sequence) ∧
    ∀ sequence bytes,
      (∀ error, (buffer.retain sequence bytes).1 = .error error → (buffer.retain sequence bytes).2 = buffer) ∧
      ((∃ error, (buffer.retain sequence bytes).1 = .error error) ↔ maxFrame < bytes.length ∨
        sequence ≠ buffer.nextSequence ∨ buffer.entries.length = capacity ∨ sequence.val = 2 ^ 64 - 1) := by
  have hwindow := h.window
  have hcapacity := hwindow.capacity_eq
  refine ⟨hwindow.consecutive, hwindow.fits, ?_, fun frame hmem bytes ↦ hwindow.content_iff hmem bytes, ?_,
    hwindow.since_spec, fun sequence bytes ↦ ⟨fun error herror ↦ ?_, ?_⟩⟩
  · unfold RetransmitBuffer.remainingCapacity
    rw [hcapacity, Run.sub_of_le hwindow.fits]
  · rintro earlier sequence bytes later hsplit hconfirmed
    obtain ⟨frame, hmem, rfl⟩ := hwindow.kept earlier sequence bytes later hsplit hconfirmed
    refine ⟨frame, hmem, rfl, (hwindow.content_iff hmem bytes).mpr ?_⟩
    rw [hsplit]
    simp [acceptedFrames, RetentionCall.accepted?]
  · exact (RetransmitBuffer.retain_eq_error (Prod.ext herror rfl)).1
  · rw [← hcapacity]
    exact RetransmitBuffer.retain_error_iff

/-- Two frames in a window of two, the first of them confirmed. -/
theorem retention_window_confirmed :
    ∃ calls buffer, Retention 2 calls buffer ∧ buffer.entries.length = 1 ∧
      ∃ frame ∈ buffer.entries, frame.sequence = 2 ∧ frame.slice = .ok [4, 5] := by
  have hfirst := Retention.retain (Retention.new : Retention 2 [] _)
    (show RetransmitBuffer.retain _ 1 [3] = (.ok (), _) from rfl)
  have hsecond := hfirst.retain (show RetransmitBuffer.retain _ 2 [4, 5] = (.ok (), _) from rfl)
  have hconfirmed := hsecond.confirmThrough (show RetransmitBuffer.confirmThrough _ 1 = _ from rfl)
  obtain ⟨_, _, _, _, hkept, _⟩ := retention_window hconfirmed
  exact ⟨_, _, hconfirmed, rfl, hkept [_] 2 [4, 5] [_] rfl fun confirmed dropped hmem ↦ by
    obtain ⟨rfl, _⟩ := RetentionCall.confirmThrough.inj (List.mem_singleton.mp hmem)
    decide⟩

end DeterministicExchange.Session
