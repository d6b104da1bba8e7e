import DeterministicExchange.Codec.Bytes
import Mathlib.Data.Multiset.AddSub

/-!
# Sessions with a vendor library

A session owns a handle of foreign code behind three callbacks. The contract of
the callbacks has two sides. This module proves the side of the sessions, from
their own code and for any callbacks; what the vendor promises in return then
makes every handle one session's alone.
-/

namespace DeterministicExchange.Ffi

open Machine Codec

abbrev I32 := Signed 32

section Api

variable (HANDLE VENDOR : Type)

/-- The callback may write a handle to the pointer that it is given; null is `none`. -/
abbrev VendorCreateFn := VENDOR → Option HANDLE → I32 × Option HANDLE × VENDOR

abbrev VendorDestroyFn := VENDOR → HANDLE → VENDOR

abbrev VendorSendFn := VENDOR → HANDLE → Bytes → U32 → I32 × VENDOR

structure VendorApi where
  create : Option (VendorCreateFn HANDLE VENDOR)
  destroy : Option (VendorDestroyFn HANDLE VENDOR)
  send : Option (VendorSendFn HANDLE VENDOR)

structure VendorSession where
  handle : HANDLE
  sendFn : VendorSendFn HANDLE VENDOR
  destroyFn : VendorDestroyFn HANDLE VENDOR

end Api

inductive VendorError where
  | invalidApi
  | payloadTooLarge
  | status (status : I32)
  deriving DecidableEq

variable {HANDLE VENDOR : Type}

/-- A table of foreign code may lack callbacks; this one has all of them. -/
def VendorApi.new (create : VendorCreateFn HANDLE VENDOR) (destroy : VendorDestroyFn HANDLE VENDOR)
    (send : VendorSendFn HANDLE VENDOR) : VendorApi HANDLE VENDOR :=
  ⟨some create, some destroy, some send⟩

def checkedPayloadLen (len : ℕ) : Except VendorError U32 :=
  okOr .payloadTooLarge (Unsigned.ofNat? 32 len)

theorem checkedPayloadLen_eq_ok {len : ℕ} {length : U32} :
    checkedPayloadLen len = .ok length ↔ len = length.val :=
  okOr_eq_ok.trans Unsigned.ofNat?_eq_some

namespace VendorSession

def openSession (api : VendorApi HANDLE VENDOR) (vendor : VENDOR) :
    Except VendorError (VendorSession HANDLE VENDOR) × VENDOR :=
  match api.create, api.destroy, api.send with
  | some create, some destroy, some send =>
    let (status, raw, vendor) := create vendor none
    if status.val ≠ 0 then (.error (.status status), vendor)
    else
      match raw with
      | none => (.error .invalidApi, vendor)
      | some handle => (.ok ⟨handle, send, destroy⟩, vendor)
  | _, _, _ => (.error .invalidApi, vendor)

def send (session : VendorSession HANDLE VENDOR) (payload : Bytes) (vendor : VENDOR) :
    Except VendorError Unit × VENDOR :=
  match checkedPayloadLen payload.length with
  | .error error => (.error error, vendor)
  | .ok length =>
    let (status, vendor) := session.sendFn vendor session.handle payload length
    (if status.val = 0 then .ok () else .error (.status status), vendor)

def drop (session : VendorSession HANDLE VENDOR) (vendor : VENDOR) : VENDOR :=
  session.destroyFn vendor session.handle

end VendorSession

/-! ## Programs -/

/-- A thread with the sessions that it holds. A session is moved when it is dropped. -/
structure Host (HANDLE VENDOR : Type) where
  sessions : List (VendorSession HANDLE VENDOR)
  vendor : VENDOR

inductive Action where
  | openSession
  | send (position : ℕ) (payload : Bytes)
  | drop (position : ℕ)

namespace Host

def handles (host : Host HANDLE VENDOR) : List HANDLE := host.sessions.map VendorSession.handle

def step (api : VendorApi HANDLE VENDOR) (host : Host HANDLE VENDOR) :
    Action → Option (Except VendorError Unit) × Host HANDLE VENDOR
  | .openSession =>
    match VendorSession.openSession api host.vendor with
    | (.ok session, vendor) => (some (.ok ()), ⟨host.sessions ++ [session], vendor⟩)
    | (.error error, vendor) => (some (.error error), { host with vendor := vendor })
  | .send position payload =>
    match host.sessions[position]? with
    | none => (none, host)
    | some session =>
      let (result, vendor) := session.send payload host.vendor
      (some result, { host with vendor := vendor })
  | .drop position =>
    match host.sessions[position]? with
    | none => (none, host)
    | some session => (some (.ok ()), ⟨host.sessions.eraseIdx position, session.drop host.vendor⟩)

def run (api : VendorApi HANDLE VENDOR) (host : Host HANDLE VENDOR) :
    List Action → List (Option (Except VendorError Unit)) × Host HANDLE VENDOR
  | [] => ([], host)
  | action :: actions =>
    let (answer, host) := step api host action
    let (answers, host) := run api host actions
    (answer :: answers, host)

end Host

/-! ## Calls -/

/-- A call of a callback with its arguments and, for `create`, what it leaves behind. -/
inductive Call (HANDLE : Type) where
  | create (out : Option HANDLE) (status : I32) (raw : Option HANDLE)
  | send (handle : HANDLE) (payload : Bytes) (length : U32)
  | destroy (handle : HANDLE)
  deriving DecidableEq

namespace Call

/-- The handle that changes hands. -/
def transferred : Call HANDLE → Option HANDLE
  | .create _ status raw => if status.val = 0 then raw else none
  | _ => none

variable [DecidableEq HANDLE]

/-- The handles of the host after a call. -/
def own (owned : Multiset HANDLE) : Call HANDLE → Multiset HANDLE
  | .destroy handle => owned.erase handle
  | call => call.transferred.elim owned (· ::ₘ owned)

def owned (calls : List (Call HANDLE)) : Multiset HANDLE := calls.foldl own 0

@[simp] theorem owned_concat (calls : List (Call HANDLE)) (call : Call HANDLE) :
    owned (calls ++ [call]) = own (owned calls) call := by
  simp [owned]

/-- What the contract demands of the caller: a null pointer to write to, handles that are owned and the
length of the payload. -/
def Permitted (owned : Multiset HANDLE) : Call HANDLE → Prop
  | .create out _ _ => out = none
  | .send handle payload length => handle ∈ owned ∧ length.val = payload.length
  | .destroy handle => handle ∈ owned

end Call

/-- Each call is permitted after the calls before it. -/
inductive Lawful [DecidableEq HANDLE] : List (Call HANDLE) → Prop
  | nil : Lawful []
  | concat {calls : List (Call HANDLE)} {call : Call HANDLE} (h : Lawful calls)
      (hpermitted : call.Permitted (Call.owned calls)) : Lawful (calls ++ [call])

/-- A handle has been destroyed as often as it has been handed over, or it is owned. -/
theorem Lawful.conserves [DecidableEq HANDLE] {calls : List (Call HANDLE)} (h : Lawful calls)
    (handle : HANDLE) :
    calls.countP (·.transferred = some handle) =
      calls.count (.destroy handle) + (Call.owned calls).count handle := by
  induction h with
  | nil => simp [Call.owned]
  | @concat calls call _ hpermitted ih =>
    rw [List.countP_append, List.count_append, Call.owned_concat, ih]
    cases call with
    | create out status raw =>
      cases htransferred : (Call.create out status raw).transferred with
      | none => simp [Call.own, htransferred]
      | some created =>
        by_cases hcreated : created = handle
        · simp [Call.own, htransferred, hcreated, Nat.add_assoc]
        · simp [Call.own, htransferred, hcreated, Multiset.count_cons_of_ne (Ne.symm hcreated)]
    | send _ _ _ => simp [Call.own, Call.transferred]
    | destroy destroyed =>
      by_cases hdestroyed : destroyed = handle
      · subst hdestroyed
        have hpos : 0 < (Call.owned calls).count destroyed := Multiset.count_pos.mpr hpermitted
        have hnone : List.countP (fun call ↦ decide (call.transferred = some destroyed))
            [Call.destroy destroyed] = 0 := by simp [Call.transferred]
        rw [hnone, List.count_singleton_self, Call.own, Multiset.count_erase_self]
        omega
      · simp [Call.own, Call.transferred, hdestroyed, Multiset.count_erase_of_ne (Ne.symm hdestroyed)]

/-! ## Recorded calls -/

/-- A vendor together with the calls that have been made. -/
abbrev Recorded (HANDLE VENDOR : Type) := VENDOR × List (Call HANDLE)

def recordCreate (create : VendorCreateFn HANDLE VENDOR) : VendorCreateFn HANDLE (Recorded HANDLE VENDOR) :=
  fun vendor out ↦
    let (status, raw, after) := create vendor.1 out
    (status, raw, after, vendor.2 ++ [.create out status raw])

def recordDestroy (destroy : VendorDestroyFn HANDLE VENDOR) :
    VendorDestroyFn HANDLE (Recorded HANDLE VENDOR) :=
  fun vendor handle ↦ (destroy vendor.1 handle, vendor.2 ++ [.destroy handle])

def recordSend (send : VendorSendFn HANDLE VENDOR) : VendorSendFn HANDLE (Recorded HANDLE VENDOR) :=
  fun vendor handle payload length ↦
    let (status, after) := send vendor.1 handle payload length
    (status, after, vendor.2 ++ [.send handle payload length])

/-- The same callbacks, each of which writes down that it has been called. -/
def VendorApi.recorded (api : VendorApi HANDLE VENDOR) : VendorApi HANDLE (Recorded HANDLE VENDOR) :=
  ⟨api.create.map recordCreate, api.destroy.map recordDestroy, api.send.map recordSend⟩

def VendorSession.recorded (session : VendorSession HANDLE VENDOR) :
    VendorSession HANDLE (Recorded HANDLE VENDOR) :=
  ⟨session.handle, recordSend session.sendFn, recordDestroy session.destroyFn⟩

def Host.recorded (host : Host HANDLE VENDOR) (calls : List (Call HANDLE)) :
    Host HANDLE (Recorded HANDLE VENDOR) :=
  ⟨host.sessions.map VendorSession.recorded, host.vendor, calls⟩

/-- The calls of one action, and what they do. -/
inductive Host.Performs (api : VendorApi HANDLE VENDOR) (host : Host HANDLE VENDOR) :
    List (Call HANDLE) → Host HANDLE VENDOR → Prop
  | nothing : Performs api host [] host
  | refused {create : VendorCreateFn HANDLE VENDOR} {status : I32} {raw : Option HANDLE} {vendor : VENDOR}
      (hcreate : api.create = some create) (hreturns : create host.vendor none = (status, raw, vendor))
      (htransferred : (Call.create none status raw).transferred = none) :
      Performs api host [.create none status raw] { host with vendor := vendor }
  | opened {create : VendorCreateFn HANDLE VENDOR} {send : VendorSendFn HANDLE VENDOR}
      {destroy : VendorDestroyFn HANDLE VENDOR} {status : I32} {raw : Option HANDLE} {vendor : VENDOR}
      {handle : HANDLE} (hcreate : api.create = some create) (hsend : api.send = some send)
      (hdestroy : api.destroy = some destroy) (hreturns : create host.vendor none = (status, raw, vendor))
      (htransferred : (Call.create none status raw).transferred = some handle) :
      Performs api host [.create none status raw] ⟨host.sessions ++ [⟨handle, send, destroy⟩], vendor⟩
  | sent {position : ℕ} {session : VendorSession HANDLE VENDOR} {payload : Bytes} {length : U32}
      (hsession : host.sessions[position]? = some session) (hlength : length.val = payload.length) :
      Performs api host [.send session.handle payload length]
        { host with vendor := (session.sendFn host.vendor session.handle payload length).2 }
  | dropped {position : ℕ} {session : VendorSession HANDLE VENDOR}
      (hsession : host.sessions[position]? = some session) :
      Performs api host [.destroy session.handle]
        ⟨host.sessions.eraseIdx position, session.destroyFn host.vendor session.handle⟩

namespace Host

/-- An action calls the vendor as it does without a record, and the record grows by its calls. -/
def Records (api : VendorApi HANDLE VENDOR) (host : Host HANDLE VENDOR) (calls : List (Call HANDLE))
    (action : Action) : Prop :=
  ∃ performed, step api.recorded (host.recorded calls) action =
      ((step api host action).1, (step api host action).2.recorded (calls ++ performed)) ∧
    Performs api host performed (step api host action).2

theorem openSession_records (api : VendorApi HANDLE VENDOR) (host : Host HANDLE VENDOR)
    (calls : List (Call HANDLE)) : Records api host calls .openSession := by
  unfold Records
  obtain ⟨create, destroy, send⟩ := api
  cases create with
  | none => exact ⟨[], by simp [step, VendorSession.openSession, VendorApi.recorded, recorded], .nothing⟩
  | some create =>
  cases destroy with
  | none => exact ⟨[], by simp [step, VendorSession.openSession, VendorApi.recorded, recorded], .nothing⟩
  | some destroy =>
  cases send with
  | none => exact ⟨[], by simp [step, VendorSession.openSession, VendorApi.recorded, recorded], .nothing⟩
  | some send =>
    obtain ⟨sessions, vendor⟩ := host
    rcases hreturns : create vendor none with ⟨status, raw, after⟩
    refine ⟨[.create none status raw], ?_⟩
    by_cases hstatus : status.val = 0
    · cases raw with
      | none =>
        have hstep : step ⟨some create, some destroy, some send⟩ ⟨sessions, vendor⟩ .openSession =
            (some (.error .invalidApi), ⟨sessions, after⟩) := by
          simp [step, VendorSession.openSession, hreturns, hstatus]
        rw [hstep]
        refine ⟨?_, .refused rfl hreturns (by simp [Call.transferred])⟩
        simp [step, VendorSession.openSession, VendorApi.recorded, recorded,
          recordCreate, hreturns, hstatus]
      | some handle =>
        have hstep : step ⟨some create, some destroy, some send⟩ ⟨sessions, vendor⟩ .openSession =
            (some (.ok ()), ⟨sessions ++ [⟨handle, send, destroy⟩], after⟩) := by
          simp [step, VendorSession.openSession, hreturns, hstatus]
        rw [hstep]
        refine ⟨?_, .opened rfl rfl rfl hreturns (by simp [Call.transferred, hstatus])⟩
        simp [step, VendorSession.openSession, VendorApi.recorded, recorded,
          recordCreate, hreturns, hstatus,
          VendorSession.recorded]
    · have hstep : step ⟨some create, some destroy, some send⟩ ⟨sessions, vendor⟩ .openSession =
          (some (.error (.status status)), ⟨sessions, after⟩) := by
        simp [step, VendorSession.openSession, hreturns, hstatus]
      rw [hstep]
      refine ⟨?_, .refused rfl hreturns (by simp [Call.transferred, hstatus])⟩
      simp [step, VendorSession.openSession, VendorApi.recorded, recorded, recordCreate, hreturns, hstatus]

theorem send_records (api : VendorApi HANDLE VENDOR) (host : Host HANDLE VENDOR) (calls : List (Call HANDLE))
    (position : ℕ) (payload : Bytes) : Records api host calls (.send position payload) := by
  unfold Records
  cases hsession : host.sessions[position]? with
  | none =>
    have hstep : step api host (.send position payload) = (none, host) := by simp [step, hsession]
    rw [hstep]
    exact ⟨[], by simp [step, recorded, hsession], .nothing⟩
  | some session =>
    cases hlength : checkedPayloadLen payload.length with
    | error error =>
      have hstep : step api host (.send position payload) = (some (.error error), host) := by
        simp [step, hsession, VendorSession.send, hlength]
      rw [hstep]
      refine ⟨[], ?_, .nothing⟩
      simp [step, recorded, hsession, VendorSession.send, hlength]
    | ok length =>
      have hstep : (step api host (.send position payload)).2 =
          { host with vendor := (session.sendFn host.vendor session.handle payload length).2 } := by
        simp [step, hsession, VendorSession.send, hlength]
      refine ⟨[.send session.handle payload length], ?_, ?_⟩
      · simp [step, recorded, hsession, VendorSession.send, hlength, VendorSession.recorded, recordSend]
        rfl
      · rw [hstep]
        exact .sent hsession (checkedPayloadLen_eq_ok.mp hlength).symm

theorem drop_records (api : VendorApi HANDLE VENDOR) (host : Host HANDLE VENDOR) (calls : List (Call HANDLE))
    (position : ℕ) : Records api host calls (.drop position) := by
  unfold Records
  cases hsession : host.sessions[position]? with
  | none =>
    have hstep : step api host (.drop position) = (none, host) := by simp [step, hsession]
    rw [hstep]
    exact ⟨[], by simp [step, recorded, hsession], .nothing⟩
  | some session =>
    have hstep : step api host (.drop position) = (some (.ok ()),
        ⟨host.sessions.eraseIdx position, session.destroyFn host.vendor session.handle⟩) := by
      simp [step, hsession, VendorSession.drop]
    rw [hstep]
    refine ⟨[.destroy session.handle], ?_, .dropped hsession⟩
    simp [step, recorded, hsession, VendorSession.drop, VendorSession.recorded, recordDestroy,
      List.eraseIdx_map]

theorem step_records (api : VendorApi HANDLE VENDOR) (host : Host HANDLE VENDOR) (calls : List (Call HANDLE))
    (action : Action) : Records api host calls action := by
  cases action with
  | openSession => exact openSession_records api host calls
  | send position payload => exact send_records api host calls position payload
  | drop position => exact drop_records api host calls position

theorem mem_handles {host : Host HANDLE VENDOR} {session : VendorSession HANDLE VENDOR}
    (h : session ∈ host.sessions) : session.handle ∈ host.handles :=
  List.mem_map_of_mem h

theorem handles_concat (host : Host HANDLE VENDOR) (session : VendorSession HANDLE VENDOR) (vendor : VENDOR) :
    handles ⟨host.sessions ++ [session], vendor⟩ = host.handles ++ [session.handle] := by
  simp [handles]

variable [DecidableEq HANDLE]

/-- The calls were permitted, and they leave the sessions with the handles that they have. -/
structure Sound (api : VendorApi HANDLE VENDOR) (calls : List (Call HANDLE)) (host : Host HANDLE VENDOR) :
    Prop where
  wired : ∀ session ∈ host.sessions, api.send = some session.sendFn ∧ api.destroy = some session.destroyFn
  lawful : Lawful calls
  owned : Call.owned calls = host.handles

variable {api : VendorApi HANDLE VENDOR} {calls performed : List (Call HANDLE)}
  {host after : Host HANDLE VENDOR}

theorem handles_eraseIdx {position : ℕ} {session : VendorSession HANDLE VENDOR}
    (h : host.sessions[position]? = some session) (vendor : VENDOR) :
    List.Perm (handles ⟨host.sessions.eraseIdx position, vendor⟩) (host.handles.erase session.handle) := by
  have hhandle : host.handles[position]? = some session.handle := by simp [handles, h]
  obtain ⟨hposition, hget⟩ := List.getElem?_eq_some_iff.mp hhandle
  rw [← hget]
  unfold handles
  rw [← List.eraseIdx_map]
  exact (List.erase_getElem hposition).symm

theorem Sound.performs (h : Sound api calls host) (hperforms : Performs api host performed after) :
    Sound api (calls ++ performed) after := by
  cases hperforms with
  | nothing => simpa using h
  | refused hcreate hreturns htransferred =>
    refine ⟨h.wired, h.lawful.concat rfl, ?_⟩
    rw [Call.owned_concat, h.owned]
    simp [Call.own, htransferred, handles]
  | opened hcreate hsend hdestroy hreturns htransferred =>
    refine ⟨?_, h.lawful.concat rfl, ?_⟩
    · intro session hsession
      rcases List.mem_append.mp hsession with hold | hnew
      · exact h.wired session hold
      · rw [List.mem_singleton.mp hnew]
        exact ⟨hsend, hdestroy⟩
    · rw [Call.owned_concat, h.owned, handles_concat]
      simp only [Call.own, htransferred, Option.elim_some, Multiset.cons_coe, Multiset.coe_eq_coe]
      exact (List.perm_append_singleton _ _).symm
  | @sent position session payload length hsession hlength =>
    have hmem := mem_handles (List.mem_of_getElem? hsession)
    refine ⟨h.wired, h.lawful.concat ⟨?_, hlength⟩, ?_⟩
    · rw [h.owned]
      exact Multiset.mem_coe.mpr hmem
    · rw [Call.owned_concat, h.owned]
      rfl
  | @dropped position session hsession =>
    have hmem := mem_handles (List.mem_of_getElem? hsession)
    refine ⟨fun other hother ↦ h.wired other (List.mem_of_mem_eraseIdx hother), h.lawful.concat ?_, ?_⟩
    · exact h.owned ▸ Multiset.mem_coe.mpr hmem
    · rw [Call.owned_concat, h.owned]
      exact (Multiset.coe_eq_coe.mpr (handles_eraseIdx hsession _)).symm

end Host

/-! ## The side of the vendor -/

/-- What the contract promises to the caller about the handles that the vendor keeps alive: a new handle is
nobody's, and only the call that destroys a handle ends it. -/
structure VendorApi.Honours (api : VendorApi HANDLE VENDOR) (live : VENDOR → Set HANDLE) : Prop where
  create_transfers : ∀ create, api.create = some create → ∀ vendor status raw vendor' handle,
    create vendor none = (status, raw, vendor') → (Call.create none status raw).transferred = some handle →
      handle ∉ live vendor ∧ live vendor' = insert handle (live vendor)
  create_refuses : ∀ create, api.create = some create → ∀ vendor status raw vendor',
    create vendor none = (status, raw, vendor') → (Call.create none status raw).transferred = none →
      live vendor' = live vendor
  send_keeps : ∀ send, api.send = some send → ∀ vendor handle payload length, handle ∈ live vendor →
    length.val = payload.length → live (send vendor handle payload length).2 = live vendor
  destroy_releases : ∀ destroy, api.destroy = some destroy → ∀ vendor handle, handle ∈ live vendor →
    live (destroy vendor handle) = live vendor \ {handle}

namespace Host

variable {api : VendorApi HANDLE VENDOR} {live : VENDOR → Set HANDLE} {calls performed : List (Call HANDLE)}
  {host after : Host HANDLE VENDOR} {others : Set HANDLE}

/-- The vendor keeps alive what others have and, apart from that, the handles of the sessions. -/
structure Holds (live : VENDOR → Set HANDLE) (others : Set HANDLE) (host : Host HANDLE VENDOR) : Prop where
  nodup : host.handles.Nodup
  apart : ∀ handle ∈ host.handles, handle ∉ others
  live : live host.vendor = others ∪ {handle | handle ∈ host.handles}

variable [DecidableEq HANDLE]

theorem Holds.performs (hhonours : api.Honours live) (hsound : Sound api calls host)
    (h : Holds live others host) (hperforms : Performs api host performed after) :
    Holds live others after := by
  cases hperforms with
  | nothing => exact h
  | refused hcreate hreturns htransferred =>
    refine ⟨h.nodup, h.apart, ?_⟩
    exact (hhonours.create_refuses _ hcreate _ _ _ _ hreturns htransferred).trans h.live
  | @opened create send destroy status raw vendor handle hcreate hsend hdestroy hreturns htransferred =>
    obtain ⟨hnew, hlive⟩ := hhonours.create_transfers _ hcreate _ _ _ _ _ hreturns htransferred
    rw [h.live] at hnew hlive
    obtain ⟨hother, hhandle⟩ := not_or.mp hnew
    refine ⟨?_, ?_, ?_⟩
    · rw [handles_concat, ← List.concat_eq_append]
      exact h.nodup.concat hhandle
    · intro held hheld
      rw [handles_concat] at hheld
      rcases List.mem_append.mp hheld with hold | hopened
      · exact h.apart held hold
      · rw [List.mem_singleton.mp hopened]
        exact hother
    · rw [hlive, handles_concat]
      ext held
      simp only [Set.mem_insert_iff, Set.mem_union, Set.mem_ofPred_eq, List.mem_append, List.mem_singleton]
      tauto
  | @sent position session payload length hsession hlength =>
    have hmem := List.mem_of_getElem? hsession
    have hheld : session.handle ∈ live host.vendor := by
      rw [h.live]
      exact .inr (mem_handles hmem)
    refine ⟨h.nodup, h.apart, ?_⟩
    exact (hhonours.send_keeps _ (hsound.wired session hmem).1 _ _ _ _ hheld hlength).trans h.live
  | @dropped position session hsession =>
    have hmem := List.mem_of_getElem? hsession
    have hhandle := mem_handles hmem
    have hperm := handles_eraseIdx hsession (session.destroyFn host.vendor session.handle)
    have hmem_iff (held : HANDLE) : held ∈ handles ⟨host.sessions.eraseIdx position,
        session.destroyFn host.vendor session.handle⟩ ↔ held ≠ session.handle ∧ held ∈ host.handles :=
      hperm.mem_iff.trans h.nodup.mem_erase_iff
    have hheld : session.handle ∈ live host.vendor := by
      rw [h.live]
      exact .inr hhandle
    refine ⟨hperm.nodup_iff.mpr (h.nodup.erase _), fun held hmem ↦
      h.apart held ((hmem_iff held).mp hmem).2, ?_⟩
    have hlive := hhonours.destroy_releases _ (hsound.wired session hmem).2 host.vendor _ hheld
    rw [hlive, h.live]
    ext held
    simp only [Set.mem_sdiff, Set.mem_union, Set.mem_ofPred_eq, Set.mem_singleton_iff, hmem_iff]
    constructor
    · rintro ⟨hother | hold, hne⟩
      · exact .inl hother
      · exact .inr ⟨hne, hold⟩
    · rintro (hother | ⟨hne, hold⟩)
      · refine ⟨.inl hother, fun heq ↦ ?_⟩
        subst heq
        exact h.apart _ hhandle hother
      · exact ⟨.inr hold, hne⟩

theorem run_sound (api : VendorApi HANDLE VENDOR) {calls : List (Call HANDLE)} {host : Host HANDLE VENDOR}
    (h : Sound api calls host) (actions : List Action) :
    ∃ calls', run api.recorded (host.recorded calls) actions =
        ((run api host actions).1, (run api host actions).2.recorded calls') ∧
      Sound api calls' (run api host actions).2 ∧
      ∀ live others, api.Honours live → Holds live others host →
        Holds live others (run api host actions).2 := by
  induction actions generalizing host calls with
  | nil => exact ⟨calls, rfl, h, fun _ _ _ hholds ↦ hholds⟩
  | cons action actions ih =>
    obtain ⟨performed, hstep, hperforms⟩ := step_records api host calls action
    obtain ⟨calls', hrun, hsound, hholds⟩ := ih (h.performs hperforms)
    refine ⟨calls', ?_, hsound, fun live others hhonours hbefore ↦ ?_⟩
    · simp only [run, hstep, hrun]
    · exact hholds live others hhonours (hbefore.performs hhonours h hperforms)

end Host

/-- In every run of a program that opens, uses and drops sessions, the calls of the vendor are permitted, and
a handle has been destroyed as often as it was handed over unless a session has it. With a vendor that honours
the contract no two sessions share a handle, none has a handle of others, and the handles of the sessions are
the only ones that the run has added to those that are alive. -/
theorem sessions_conserve_handles [DecidableEq HANDLE] (api : VendorApi HANDLE VENDOR) (start : VENDOR)
    (actions : List Action) :
    ∃ (answers : List (Option (Except VendorError Unit))) (after : Host HANDLE VENDOR)
      (calls : List (Call HANDLE)),
      Host.run api ⟨[], start⟩ actions = (answers, after) ∧
      Host.run api.recorded ⟨[], start, []⟩ actions = (answers, after.recorded calls) ∧
      Lawful calls ∧
      (∀ handle, calls.countP (·.transferred = some handle) =
        calls.count (.destroy handle) + after.handles.count handle) ∧
      ∀ live, api.Honours live →
        after.handles.Nodup ∧ (∀ handle ∈ after.handles, handle ∉ live start) ∧
        live after.vendor = live start ∪ {handle | handle ∈ after.handles} := by
  have hstart : Host.Sound api [] ⟨[], start⟩ := ⟨by simp, .nil, rfl⟩
  obtain ⟨calls, hrun, hsound, hholds⟩ := Host.run_sound api hstart actions
  refine ⟨_, _, calls, rfl, hrun, hsound.lawful, fun handle ↦ ?_, fun live hhonours ↦ ?_⟩
  · rw [hsound.lawful.conserves, hsound.owned, Multiset.coe_count]
  · have hinitial : Host.Holds live (live start) ⟨[], start⟩ := ⟨.nil, by simp [Host.handles], by
      simp [Host.handles]⟩
    obtain ⟨hnodup, hapart, hlive⟩ := hholds live (live start) hhonours hinitial
    exact ⟨hnodup, hapart, hlive⟩

/-! ## A vendor with one handle -/

def sampleSuccess : I32 := ⟨0, by decide⟩

def sampleRefusal : I32 := ⟨1, by decide⟩

/-- The state tells whether the handle is out. -/
def sampleApi : VendorApi Unit Bool :=
  .new (fun busy out ↦ bif busy then (sampleRefusal, out, busy) else (sampleSuccess, some (), true))
    (fun _ _ ↦ false) fun busy _ _ _ ↦ (sampleSuccess, busy)

theorem sampleApi_honours : sampleApi.Honours fun busy ↦ {_handle | busy = true} where
  create_transfers := by
    intro create hcreate vendor status raw vendor' handle hreturns htransferred
    obtain rfl := Option.some.inj hcreate
    cases vendor with
    | false =>
      obtain ⟨rfl, rfl, rfl⟩ := hreturns
      exact ⟨by simp, by ext; simp⟩
    | true =>
      obtain ⟨rfl, rfl, rfl⟩ := hreturns
      cases htransferred
  create_refuses := by
    intro create hcreate vendor status raw vendor' hreturns htransferred
    obtain rfl := Option.some.inj hcreate
    cases vendor with
    | false =>
      obtain ⟨rfl, rfl, rfl⟩ := hreturns
      cases htransferred
    | true =>
      obtain ⟨rfl, rfl, rfl⟩ := hreturns
      rfl
  send_keeps := by
    intro send hsend vendor handle payload length _ _
    obtain rfl := Option.some.inj hsend
    rfl
  destroy_releases := by
    intro destroy hdestroy vendor handle _
    obtain rfl := Option.some.inj hdestroy
    ext
    simp

/-- The second session is refused while the first is open; a send to it finds no session. -/
def sampleActions : List Action :=
  [.openSession, .openSession, .send 0 [1], .send 1 [1], .drop 0, .openSession]

theorem sampleActions_answers :
    (Host.run sampleApi ⟨[], false⟩ sampleActions).1 =
      [some (.ok ()), some (.error (.status sampleRefusal)), some (.ok ()), none,
        some (.ok ()), some (.ok ())] ∧
    (Host.run sampleApi ⟨[], false⟩ sampleActions).2.handles = [()] ∧
    (Host.run sampleApi.recorded ⟨[], false, []⟩ sampleActions).2.vendor.2.count (.destroy ()) = 1 := by
  decide

theorem sessions_conserve_handles_sample :
    ∃ (after : Host Unit Bool) (calls : List (Call Unit)),
      Host.run sampleApi.recorded ⟨[], false, []⟩ sampleActions =
        ([some (.ok ()), some (.error (.status sampleRefusal)), some (.ok ()), none, some (.ok ()),
          some (.ok ())], after.recorded calls) ∧
      Lawful calls ∧ calls.countP (·.transferred = some ()) = 2 ∧ after.handles.Nodup := by
  obtain ⟨answers, after, calls, hrun, hrecorded, hlawful, hconserves, hvendor⟩ :=
    sessions_conserve_handles sampleApi false sampleActions
  obtain ⟨hanswers, hhandles, hdestroyed⟩ := sampleActions_answers
  rw [hrun] at hanswers hhandles
  rw [hrecorded] at hdestroyed
  dsimp only at hanswers hhandles
  have hcount : calls.count (.destroy ()) = 1 := hdestroyed
  refine ⟨after, calls, ?_, hlawful, ?_, (hvendor _ sampleApi_honours).1⟩
  · rw [hrecorded, hanswers]
  · rw [hconserves, hcount, hhandles]
    rfl

end DeterministicExchange.Ffi
