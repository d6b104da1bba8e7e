import DeterministicExchange.Gateway.Digest
import DeterministicExchange.Gateway.Frame
import DeterministicExchange.Gateway.History
import DeterministicExchange.Gateway.Lifecycle
import DeterministicExchange.Gateway.Rejection
import DeterministicExchange.Machine.Cursor

/-!
# Replay of recorded frames

`hft-replay` feeds frames to a gateway and stops at the first one that is not
accepted. A session that goes on after its rejections is reproduced from the
frames that it admitted, with its digest, as long as there is no rejection among
them; the first rejection is where the replay stops.
-/

namespace DeterministicExchange.Replay

open Machine Codec

variable {ACCOUNTS RISK_ORDERS LEVELS ORDERS REPORTS : ℕ}

structure ReplaySummary where
  frames : U64
  reports : U64
  digest : U64
  deriving DecidableEq

/-- The loop over the frames, with the count of the reports so far. -/
def replayFrames : List Bytes → Gateway ACCOUNTS RISK_ORDERS LEVELS ORDERS → ReportBuffer REPORTS → U64 →
    Run (Except GatewayError U64 × Gateway ACCOUNTS RISK_ORDERS LEVELS ORDERS)
  | [], gateway, _, reportCount => .ok (.ok reportCount, gateway)
  | bytes :: frames, gateway, reports, reportCount => do
    match ← gateway.processFrame bytes reports with
    | (.error error, gateway, _) => return (.error error, gateway)
    | (.ok _, gateway, reports) =>
      replayFrames frames gateway reports (Unsigned.wrappingAdd reportCount (wrapping reports.entries.length))

/-- The gateway stays as the last frame left it, whatever is returned. -/
def replay (REPORTS : ℕ) (gateway : Gateway ACCOUNTS RISK_ORDERS LEVELS ORDERS) (frames : List Bytes) :
    Run (Except GatewayError ReplaySummary × Gateway ACCOUNTS RISK_ORDERS LEVELS ORDERS) := do
  match ← replayFrames frames gateway (ReportBuffer.new REPORTS) 0 with
  | (.error error, gateway) => return (.error error, gateway)
  | (.ok reportCount, gateway) =>
    return (.ok ⟨wrapping frames.length, reportCount, ← gateway.stableDigest⟩, gateway)

/-! ## Sessions over frames -/

/-- A frame with its answer, the number of its reports and the gateway after it. -/
structure Exchange (ACCOUNTS RISK_ORDERS LEVELS ORDERS : ℕ) where
  frame : Bytes
  answer : Except GatewayError GatewayOutcome
  reports : ℕ
  after : Gateway ACCOUNTS RISK_ORDERS LEVELS ORDERS

/-- Accepted, or rejected by risk or by the book: the frame has used up its sequence number. -/
def Exchange.admitted (exchange : Exchange ACCOUNTS RISK_ORDERS LEVELS ORDERS) : Bool :=
  match exchange.answer with
  | .ok _ | .error (.risk _) | .error (.book _) => true
  | .error _ => false

def Exchange.Accepted (exchange : Exchange ACCOUNTS RISK_ORDERS LEVELS ORDERS) : Prop :=
  ∃ outcome, exchange.answer = .ok outcome

/-- Frames that arrive one after another, each at the gateway that the one before has left, whatever the
answers are. -/
inductive Session (REPORTS : ℕ) : Gateway ACCOUNTS RISK_ORDERS LEVELS ORDERS →
    List (Exchange ACCOUNTS RISK_ORDERS LEVELS ORDERS) → Gateway ACCOUNTS RISK_ORDERS LEVELS ORDERS →
    Prop where
  | nil {gateway : Gateway ACCOUNTS RISK_ORDERS LEVELS ORDERS} : Session REPORTS gateway [] gateway
  | cons {gateway live : Gateway ACCOUNTS RISK_ORDERS LEVELS ORDERS}
      {exchange : Exchange ACCOUNTS RISK_ORDERS LEVELS ORDERS}
      {exchanges : List (Exchange ACCOUNTS RISK_ORDERS LEVELS ORDERS)}
        {reports reports' : ReportBuffer REPORTS}
      (hrun : gateway.processFrame exchange.frame reports = .ok (exchange.answer, exchange.after, reports'))
      (hreports : exchange.reports = reports'.entries.length)
      (hrest : Session REPORTS exchange.after exchanges live) :
      Session REPORTS gateway (exchange :: exchanges) live

section Sessions

variable {start gateway live : Gateway ACCOUNTS RISK_ORDERS LEVELS ORDERS}
  {exchange : Exchange ACCOUNTS RISK_ORDERS LEVELS ORDERS}
  {exchanges : List (Exchange ACCOUNTS RISK_ORDERS LEVELS ORDERS)} {reports reports' : ReportBuffer REPORTS}

theorem Exchange.admitted_of_business (h : Logical.Gateway.Business exchange.answer) :
    exchange.admitted = true := by
  unfold Logical.Gateway.Business at h
  unfold Exchange.admitted
  split
  · rfl
  · rfl
  · rfl
  · next error hrisk hbook hanswer =>
    rw [hanswer] at h
    split at h
    · next hok => cases hok
    · next reason hreason => exact absurd (Except.error.inj hreason) (hrisk reason)
    · next reason hreason => exact absurd (Except.error.inj hreason) (hbook reason)
    · exact absurd h not_false

/-- A frame that is not admitted leaves a sound gateway as it is. -/
theorem Exchange.after_of_refused (hc : Capacities ACCOUNTS RISK_ORDERS LEVELS ORDERS)
    (hsound : gateway.Sound)
    (hrun : gateway.processFrame exchange.frame reports = .ok (exchange.answer, exchange.after, reports')) :
    exchange.after.Sound ∧ (exchange.admitted = false → exchange.after = gateway) := by
  rcases Wire.parseMessage_cases exchange.frame with ⟨error, hparse⟩ | ⟨message, command, hparse, hcommand, _⟩
  · unfold Gateway.processFrame at hrun
    rw [hparse, Run.ok_bind] at hrun
    obtain ⟨_, hnext⟩ := Prod.mk.inj (Except.ok.inj hrun)
    have hsame := (Prod.mk.inj hnext).1
    rw [← hsame]
    exact ⟨hsound, fun _ ↦ rfl⟩
  rw [gateway.processFrame_of_parse reports hparse hcommand] at hrun
  obtain ⟨logical, hrep, hinvariant⟩ := hsound
  by_cases haccepts : gateway.Accepts command
  · obtain ⟨_, hbusiness, logical', hrep', hinvariant', _⟩ := hrep.accepted hc hinvariant haccepts hrun
    have hadmitted := Exchange.admitted_of_business hbusiness
    exact ⟨⟨logical', hrep', hinvariant'⟩, fun hrefused ↦ absurd (hadmitted.symm.trans hrefused) (by simp)⟩
  · cases hcheck : Gateway.checkSequence gateway.expectedSequence command.sequence with
    | ok next => exact absurd ⟨next, hcheck⟩ haccepts
    | error error =>
      rw [Gateway.processCommand_of_not_admitted hcheck] at hrun
      obtain ⟨_, hnext⟩ := Prod.mk.inj (Except.ok.inj hrun)
      have hsame := (Prod.mk.inj hnext).1
      rw [← hsame]
      exact ⟨⟨logical, hrep, hinvariant⟩, fun _ ↦ rfl⟩

/-- The admitted frames of a session are a session on their own. -/
theorem Session.admitted (hc : Capacities ACCOUNTS RISK_ORDERS LEVELS ORDERS) (hsound : start.Sound)
    (h : Session REPORTS start exchanges live) :
    live.Sound ∧ Session REPORTS start (exchanges.filter Exchange.admitted) live := by
  induction h with
  | nil => exact ⟨hsound, .nil⟩
  | @cons gateway live exchange exchanges reports reports' hrun hreports _ ih =>
    obtain ⟨hafter, hsame⟩ := Exchange.after_of_refused hc hsound hrun
    obtain ⟨hlive, hrest⟩ := ih hafter
    refine ⟨hlive, ?_⟩
    cases hadmitted : exchange.admitted with
    | true =>
      rw [List.filter_cons_of_pos hadmitted]
      exact .cons hrun hreports hrest
    | false =>
      rw [List.filter_cons_of_neg (by rw [hadmitted]; exact Bool.false_ne_true)]
      exact hsame hadmitted ▸ hrest

/-- Every frame is answered. -/
theorem Session.exists_frames (hc : Capacities ACCOUNTS RISK_ORDERS LEVELS ORDERS) (REPORTS : ℕ)
    (hsound : start.Sound) (frames : List Bytes) :
    ∃ exchanges live, exchanges.map Exchange.frame = frames ∧ Session REPORTS start exchanges live := by
  induction frames generalizing start with
  | nil => exact ⟨[], start, rfl, .nil⟩
  | cons bytes frames ih =>
    have hanswer : ∃ answer after reports,
        start.processFrame bytes (ReportBuffer.new REPORTS) = .ok (answer, after, reports) := by
      rcases Wire.parseMessage_cases bytes with ⟨error, hparse⟩ | ⟨message, command, hparse, hcommand, _⟩
      · unfold Gateway.processFrame
        rw [hparse, Run.ok_bind]
        exact ⟨_, _, _, rfl⟩
      · obtain ⟨logical, hrep, hinvariant⟩ := hsound
        obtain ⟨answer, after, reports, _, hrun, _⟩ :=
          hrep.commandStep hc hinvariant command (ReportBuffer.new REPORTS)
        rw [start.processFrame_of_parse _ hparse hcommand]
        exact ⟨answer, after, reports, hrun⟩
    obtain ⟨answer, after, reports, hrun⟩ := hanswer
    set exchange : Exchange ACCOUNTS RISK_ORDERS LEVELS ORDERS :=
      ⟨bytes, answer, reports.entries.length, after⟩
    have hafter : exchange.after.Sound := (Exchange.after_of_refused hc hsound hrun).1
    obtain ⟨exchanges, live, hframes, hrest⟩ := ih hafter
    refine ⟨exchange :: exchanges, live, ?_, .cons hrun rfl hrest⟩
    rw [List.map_cons, hframes]

/-! ## The loop -/

theorem wrappingAdd_wrapping_zero (a : U64) : Unsigned.wrappingAdd a (wrapping 0) = a :=
  Fin.ext (Nat.mod_eq_of_lt a.isLt)

theorem wrappingAdd_zero_wrapping (n : ℕ) : Unsigned.wrappingAdd 0 (wrapping n) = wrapping n := by
  apply Fin.ext
  show (0 + n % 2 ^ 64) % 2 ^ 64 = n % 2 ^ 64
  rw [Nat.zero_add, Nat.mod_mod]

theorem wrappingAdd_wrapping_add (a : U64) (m n : ℕ) :
    Unsigned.wrappingAdd (Unsigned.wrappingAdd a (wrapping m)) (wrapping n) =
      Unsigned.wrappingAdd a (wrapping (m + n)) := by
  apply Fin.ext
  show ((a.val + m % 2 ^ 64) % 2 ^ 64 + n % 2 ^ 64) % 2 ^ 64 = (a.val + (m + n) % 2 ^ 64) % 2 ^ 64
  rw [Nat.add_mod_mod, Nat.add_mod_mod, Nat.add_mod_mod, Nat.mod_add_mod, Nat.add_assoc]

/-- Frames that were all accepted lead the loop where they led the session. -/
theorem Session.replayFrames (h : Session REPORTS start exchanges live)
    (haccepted : ∀ exchange ∈ exchanges, exchange.Accepted) (reports : ReportBuffer REPORTS)
    (reportCount : U64) :
    Replay.replayFrames (exchanges.map Exchange.frame) start reports reportCount =
      .ok (.ok (Unsigned.wrappingAdd reportCount (wrapping (exchanges.map Exchange.reports).sum)), live) := by
  induction h generalizing reports reportCount with
  | nil =>
    rw [List.map_nil, List.map_nil, List.sum_nil, wrappingAdd_wrapping_zero]
    rfl
  | @cons gateway live exchange exchanges buffer buffer' hrun hreports _ ih =>
    obtain ⟨outcome, hanswer⟩ := haccepted exchange List.mem_cons_self
    have hframe : gateway.processFrame exchange.frame reports =
        .ok (.ok outcome, exchange.after, buffer') := by
      rw [← hanswer]
      exact hrun
    rw [List.map_cons, Replay.replayFrames, hframe, Run.ok_bind]
    show Replay.replayFrames (exchanges.map Exchange.frame) exchange.after buffer' _ = _
    rw [ih (fun other hother ↦ haccepted other (List.mem_cons_of_mem _ hother)), List.map_cons, List.sum_cons,
      hreports, wrappingAdd_wrapping_add]

/-- The loop stops at the first rejection. -/
theorem Session.replayFrames_rejected {before later : List (Exchange ACCOUNTS RISK_ORDERS LEVELS ORDERS)}
    {rejected : Exchange ACCOUNTS RISK_ORDERS LEVELS ORDERS} {error : GatewayError}
    (h : Session REPORTS start (before ++ rejected :: later) live)
    (haccepted : ∀ exchange ∈ before, exchange.Accepted) (hrejected : rejected.answer = .error error)
    (reports : ReportBuffer REPORTS) (reportCount : U64) :
    Replay.replayFrames ((before ++ rejected :: later).map Exchange.frame) start reports reportCount =
      .ok (.error error, rejected.after) := by
  induction before generalizing start reports reportCount with
  | nil =>
    cases h with
    | @cons _ _ _ _ buffer buffer' hrun _ _ =>
      have hframe : start.processFrame rejected.frame reports =
          .ok (.error error, rejected.after, buffer') := by
        rw [← hrejected]
        exact hrun
      rw [List.nil_append, List.map_cons, Replay.replayFrames, hframe, Run.ok_bind]
      rfl
  | cons exchange before ih =>
    cases h with
    | @cons _ _ _ _ buffer buffer' hrun _ hrest =>
      obtain ⟨outcome, hanswer⟩ := haccepted exchange List.mem_cons_self
      have hframe : start.processFrame exchange.frame reports =
          .ok (.ok outcome, exchange.after, buffer') := by
        rw [← hanswer]
        exact hrun
      rw [List.cons_append, List.map_cons, Replay.replayFrames, hframe, Run.ok_bind]
      exact ih hrest (fun other hother ↦ haccepted other (List.mem_cons_of_mem _ hother)) _ _

end Sessions

/-- Any frames make a session, which is replayed from the frames that it has admitted. If all of them were
accepted, the replay ends in the gateway of the session, with the number of its frames and of its reports and
with its digest. Otherwise it stops at the first one that was rejected, with that rejection, in the gateway
which the session had then. -/
theorem replay_of_session (hc : Capacities ACCOUNTS RISK_ORDERS LEVELS ORDERS)
    {start : Gateway ACCOUNTS RISK_ORDERS LEVELS ORDERS} (hstart : start.Reachable) (REPORTS : ℕ) :
    (∀ frames, ∃ exchanges live, exchanges.map Exchange.frame = frames ∧
      Session REPORTS start exchanges live) ∧
    ∀ exchanges live admitted, Session REPORTS start exchanges live →
      admitted = exchanges.filter Exchange.admitted →
      ((∀ exchange ∈ admitted, exchange.Accepted) →
        ∃ digest, live.stableDigest = .ok digest ∧
          replay REPORTS start (admitted.map Exchange.frame) =
            .ok (.ok ⟨wrapping admitted.length,
              wrapping (admitted.map Exchange.reports).sum, digest⟩, live)) ∧
      ∀ before rejected later error, admitted = before ++ rejected :: later →
        (∀ exchange ∈ before, exchange.Accepted) → rejected.answer = .error error →
          replay REPORTS start (admitted.map Exchange.frame) = .ok (.error error, rejected.after) := by
  refine ⟨Session.exists_frames hc REPORTS (hstart.sound hc), ?_⟩
  intro exchanges live admitted h hadmitted
  obtain ⟨⟨logical, hrep, _⟩, hsession⟩ := h.admitted hc (hstart.sound hc)
  rw [← hadmitted] at hsession
  constructor
  · intro haccepted
    have hbook := hrep.book.stableDigest hc.index.addressable.book
    obtain ⟨digest, hdigest⟩ : ∃ digest, live.stableDigest = .ok digest := by
      unfold Gateway.stableDigest
      rw [hbook, Run.ok_bind]
      exact ⟨_, rfl⟩
    refine ⟨digest, hdigest, ?_⟩
    unfold replay
    rw [hsession.replayFrames haccepted, Run.ok_bind]
    show ((live.stableDigest >>= fun digest ↦ .ok (_, live)) : Run _) = _
    rw [hdigest, Run.ok_bind, List.length_map, wrappingAdd_zero_wrapping]
  · intro before rejected later error hsplit haccepted hrejected
    rw [hsplit] at hsession ⊢
    unfold replay
    rw [hsession.replayFrames_rejected haccepted hrejected, Run.ok_bind]
    rfl

/-- The frame of a command with what the gateway returned for it. -/
def exchangeOf (command : Command)
    (result : Except GatewayError GatewayOutcome × Gateway ACCOUNTS RISK_ORDERS LEVELS ORDERS ×
      ReportBuffer REPORTS) :
    Exchange ACCOUNTS RISK_ORDERS LEVELS ORDERS :=
  ⟨Wire.encodeCommand command, result.1, result.2.2.entries.length, result.2.1⟩

theorem Session.cons_command {gateway live : Gateway ACCOUNTS RISK_ORDERS LEVELS ORDERS} {command : Command}
    {exchanges : List (Exchange ACCOUNTS RISK_ORDERS LEVELS ORDERS)} {reports : ReportBuffer REPORTS}
    {result : Except GatewayError GatewayOutcome × Gateway ACCOUNTS RISK_ORDERS LEVELS ORDERS
      × ReportBuffer REPORTS}
    (hrun : gateway.processCommand command reports = .ok result)
    (hrest : Session REPORTS result.2.1 exchanges live) :
    Session REPORTS gateway (exchangeOf command result :: exchanges) live := by
  have hframe : gateway.processFrame (Wire.encodeCommand command) reports = .ok result := by
    rw [gateway.processFrame_of_parse reports (Wire.parseMessage_encodeCommand command)
      (Wire.toCommand_messageOf command)]
    exact hrun
  exact .cons hframe rfl hrest

theorem sampleOrder_result :
    ((Gateway.sampleStart.processCommand Gateway.sampleOrder (ReportBuffer.new 1)).toOption.get
      Gateway.sampleOrder_returns).1 = .ok (.newOrder ⟨.accepted, 0, 5, 0, 0⟩) := by
  decide

/-- An empty frame, an order and its cancellation: two of the three frames are replayed. -/
theorem replay_of_session_sample :
    ∃ reports digest, Gateway.sampleCancelled.stableDigest = .ok digest ∧
      replay 1 Gateway.sampleStart
          [Wire.encodeCommand Gateway.sampleOrder, Wire.encodeCommand (Gateway.sampleCancel 2)] =
        .ok (.ok ⟨2, reports, digest⟩, Gateway.sampleCancelled) := by
  have hempty : Gateway.sampleStart.processFrame [] (ReportBuffer.new 1) =
      .ok (.error (.parse .truncatedHeader), Gateway.sampleStart, ReportBuffer.new 1) := rfl
  have horder := Run.eq_ok_get Gateway.sampleOrder_returns
  have hcancel := Run.eq_ok_get Gateway.sampleCancel_returns
  have hsession : Session 1 Gateway.sampleStart
      [⟨[], .error (.parse .truncatedHeader), 0, Gateway.sampleStart⟩, exchangeOf Gateway.sampleOrder _,
        exchangeOf (Gateway.sampleCancel 2) _] Gateway.sampleCancelled :=
    .cons hempty rfl (.cons_command horder (.cons_command hcancel .nil))
  obtain ⟨_, hsessions⟩ := replay_of_session ⟨by decide, by decide, by decide, by decide⟩
    (.start (.inl Gateway.sampleStart_started)) 1
  obtain ⟨hreplayed, _⟩ := hsessions _ _ _ hsession rfl
  obtain ⟨digest, hdigest, hreplay⟩ := hreplayed (by
    intro exchange hmem
    rcases List.mem_pair.mp hmem with rfl | rfl
    · exact ⟨_, sampleOrder_result⟩
    · exact ⟨_, Gateway.sampleCancel_result⟩)
  exact ⟨_, digest, hdigest, hreplay⟩

end DeterministicExchange.Replay
