import DeterministicExchange.Engine.Bundle
import DeterministicExchange.Engine.Checkpoint
import DeterministicExchange.Engine.CrashRecovery
import DeterministicExchange.Gateway.Profile

/-!
# Engines that follow one another

The first bundle of an engine is a snapshot of its new gateway. An engine that is
restored from a bundle runs until it stops at any point; the whole records in its
sink then follow the tail of the bundle. Or it ends in a snapshot, which replaces
the bundle if an engine can be restored from it. However often this happens, the
bundle stands for all commands that were recorded since the first one.
-/

namespace DeterministicExchange

open Machine Codec Risk Events Journal Recovery

variable {ACCOUNTS RISK_ORDERS LEVELS ORDERS BATCH REPORTS EVENTS JOURNAL_BATCH : ℕ}
  {crc32c : Bytes → U32} {sha256 : Bytes → Digest}

/-! ## The accounts of a new engine -/

namespace EngineBuilder

theorem registerAccounts_profile (hA : ACCOUNTS * indexPlanes ≤ 2 ^ 32)
    {accounts : List (AccountId × RiskLimits)} {risk risk' : RiskEngine ACCOUNTS RISK_ORDERS}
    {state : RiskEngineState} (h : risk.Represents state)
    (hrun : registerAccounts accounts risk = .ok (.ok risk')) :
    ∃ state', risk'.Represents state' ∧ state'.profile.Perm (accounts ++ state.profile) := by
  induction accounts generalizing risk state with
  | nil =>
    obtain rfl := Except.ok.inj (Except.ok.inj hrun)
    exact ⟨state, h, .refl _⟩
  | cons account accounts ih =>
    obtain ⟨id, limits⟩ := account
    obtain ⟨⟨result, risk₁⟩, hregister, hrest⟩ := Run.bind_eq_ok.mp hrun
    have himplements := h.registerAccount hA id limits
    cases hspec : state.registerAccount ACCOUNTS id limits with
    | error error =>
      have hrefused := himplements.of_error hspec
      rw [hregister] at hrefused
      obtain ⟨rfl, _⟩ := Prod.mk.inj (Except.ok.inj hrefused)
      cases hrest
    | ok outcome =>
      obtain ⟨value, state₁⟩ := outcome
      obtain ⟨risk₂, haccepted, hrep⟩ := himplements.of_ok hspec
      rw [hregister] at haccepted
      obtain ⟨rfl, rfl⟩ := Prod.mk.inj (Except.ok.inj haccepted)
      obtain ⟨state', hrep', hperm⟩ := ih hrep hrest
      have hinserted : state₁.profile.Perm ((id, limits) :: state.profile) := by
        unfold RiskEngineState.registerAccount at hspec
        split at hspec
        · cases hspec
        split at hspec
        · cases hspec
        split at hspec
        · cases hspec
        obtain ⟨_, rfl⟩ := Prod.mk.inj (Except.ok.inj hspec)
        exact (List.perm_orderedInsert _ _ _).map _
      refine ⟨state', hrep', ?_⟩
      calc
        state'.profile.Perm (accounts ++ state₁.profile) := hperm
        (accounts ++ state₁.profile).Perm (accounts ++ (id, limits) :: state.profile) :=
          hinserted.append_left _
        (accounts ++ (id, limits) :: state.profile).Perm ((id, limits) :: (accounts ++ state.profile)) :=
          List.perm_middle

/-- A configuration that describes an engine and its gateway. -/
structure Describes (REPORTS : ℕ) (configuration : EngineConfig)
    (gateway : Gateway ACCOUNTS RISK_ORDERS LEVELS ORDERS) : Prop where
  valid : configuration.validate = .ok ()
  capacities : configuration.capacities.toList = [ACCOUNTS, RISK_ORDERS, LEVELS, ORDERS, REPORTS]
  profile : gateway.profile = (configuration.instrument, configuration.accounts)

theorem new_describes (hA : ACCOUNTS * indexPlanes ≤ 2 ^ 32) {instrument : InstrumentId}
    {accounts : List (AccountId × RiskLimits)} {builder : EngineBuilder ACCOUNTS RISK_ORDERS LEVELS ORDERS}
    (h : new REPORTS instrument accounts = .ok (.ok builder)) :
    Describes REPORTS builder.configuration builder.gateway := by
  unfold new at h
  split at h
  · simp at h
  obtain ⟨registered, hregister, hrest⟩ := Run.bind_eq_ok.mp h
  split at hrest
  · simp at hrest
  next risk =>
  dsimp only at hrest
  split at hrest
  · simp at hrest
  next hvalid =>
  obtain rfl := Except.ok.inj (Except.ok.inj hrest)
  obtain ⟨state, hrep, hperm⟩ := registerAccounts_profile hA
    (RiskEngine.Represents.new ACCOUNTS RISK_ORDERS) hregister
  have hempty : RiskEngineState.empty.profile = [] := rfl
  rw [hempty, List.append_nil] at hperm
  refine ⟨hvalid, rfl, ?_⟩
  have hsorted : state.profile.Pairwise fun a b ↦ a.1 < b.1 := by
    unfold RiskEngineState.profile
    rw [List.pairwise_map]
    exact hrep.ordered.accounts
  unfold Gateway.profile
  dsimp only
  rw [show (Gateway.new risk instrument).risk = risk from rfl, hrep.exportState,
    KeyOrder.insertionSort_eq hperm.symm hsorted]
  rfl

/-! ## Restoring what was configured -/

/-- A recovered gateway is the one of a builder with the configuration that describes it. -/
theorem restore_eq_ok (hsized : Sized ACCOUNTS RISK_ORDERS LEVELS ORDERS REPORTS)
    {configuration : EngineConfig}
    {gateway : Gateway ACCOUNTS RISK_ORDERS LEVELS ORDERS}
    (hdescribes : Describes REPORTS configuration gateway) {snapshot tail : Bytes}
    (hrecover : recoverSnapshotAndTail crc32c sha256 REPORTS snapshot tail = .ok (.ok gateway)) :
    restore REPORTS crc32c sha256 configuration.instrument snapshot tail =
      .ok (.ok ⟨gateway, configuration⟩) := by
  obtain ⟨hinstrument, haccounts⟩ := Prod.mk.inj hdescribes.profile
  have hcapacity : validateCapacity ACCOUNTS RISK_ORDERS LEVELS ORDERS REPORTS = .ok () := by
    unfold validateCapacity
    obtain ⟨haccounts, hriskOrders, hlevels, horders, hreports⟩ := hsized
    rw [if_neg (by omega)]
  unfold restore
  rw [hcapacity]
  dsimp only
  rw [hrecover, Run.ok_bind]
  dsimp only
  rw [if_neg (not_not_intro hinstrument)]
  have hsame : (⟨configuration.instrument, #v[ACCOUNTS, RISK_ORDERS, LEVELS, ORDERS, REPORTS],
      gateway.risk.exportState.accounts.map fun account ↦ (account.id, account.limits)⟩ : EngineConfig) =
        configuration := by
    obtain ⟨instrument, capacities, accounts⟩ := configuration
    have hcapacities : #v[ACCOUNTS, RISK_ORDERS, LEVELS, ORDERS, REPORTS] = capacities :=
      Vector.toList_inj.mp hdescribes.capacities.symm
    rw [hcapacities]
    exact congrArg (EngineConfig.mk instrument capacities) haccounts
  rw [hsame, hdescribes.valid]
  rfl

/-- A sidecar restores an engine if the snapshot alone and the snapshot with its tail recover to gateways
that it describes. -/
theorem restoreConfigured_of_recover (hsized : Sized ACCOUNTS RISK_ORDERS LEVELS ORDERS REPORTS)
    {configuration : EngineConfig} (haddressable : configuration.Addressable)
    {start gateway : Gateway ACCOUNTS RISK_ORDERS LEVELS ORDERS} {snapshot tail : Bytes}
    (hstart : Describes REPORTS configuration start) (hdescribes : Describes REPORTS configuration gateway)
    (hrecover : recoverSnapshotAndTail crc32c sha256 REPORTS snapshot [] = .ok (.ok start))
    (hrecover' : recoverSnapshotAndTail crc32c sha256 REPORTS snapshot tail = .ok (.ok gateway)) :
    restoreConfigured REPORTS crc32c sha256 configuration configuration.encode snapshot tail =
      .ok (.ok ⟨gateway, configuration⟩) := by
  have hdecode : EngineConfig.decode configuration.encode = .ok configuration := by
    rw [EngineConfig.decode_encode haddressable, hdescribes.valid]
    rfl
  have hcompatible : configuration.checkCompatible configuration = .ok () := by
    unfold EngineConfig.checkCompatible
    rw [hdescribes.valid]
    exact if_neg (not_not_intro rfl)
  unfold restoreConfigured
  rw [hdecode]
  dsimp only
  rw [hcompatible]
  dsimp only
  rw [if_neg (not_not_intro hdescribes.capacities), restore_eq_ok hsized hstart hrecover, Run.ok_bind]
  dsimp only
  rw [hcompatible]
  dsimp only
  rw [restore_eq_ok hsized hdescribes hrecover', Run.ok_bind]
  rfl

end EngineBuilder

/-! ## What a bundle stands for -/

/-- A bundle stands for the commands that lead from the first gateway to the last: its snapshot for the
commands before, and its tail for those after. -/
structure RecoveryBundle.Recalls (crc32c : Bytes → U32) (sha256 : Bytes → Digest) (REPORTS : ℕ)
    (first last : Gateway ACCOUNTS RISK_ORDERS LEVELS ORDERS) (bundle : RecoveryBundle)
    (before after : List Command) : Prop where
  cut : ∃ (decoded : DecodedSnapshot ACCOUNTS RISK_ORDERS LEVELS ORDERS)
    (twin : Gateway ACCOUNTS RISK_ORDERS LEVELS ORDERS) (logical : Logical.Gateway),
    decodeSnapshot sha256 bundle.snapshot = .ok (.ok decoded) ∧
    decoded.appliedSequence.val + 1 = logical.expectedSequence.val ∧
    decoded.gateway.Represents logical ∧ twin.Represents logical ∧ logical.Invariant LEVELS ORDERS ∧
    Gateway.History REPORTS first before twin ∧ Gateway.History REPORTS twin after last
  tail : ∃ records, bundle.tail = journalBytes records ∧ List.Forall₂ (Carries crc32c) records after

namespace RecoveryBundle

variable {first last : Gateway ACCOUNTS RISK_ORDERS LEVELS ORDERS} {bundle : RecoveryBundle}
  {before after : List Command}

theorem Recalls.history (h : Recalls crc32c sha256 REPORTS first last bundle before after) :
    Gateway.History REPORTS first (before ++ after) last := by
  obtain ⟨_, _, _, _, _, _, _, _, hbefore, hafter⟩ := h.cut
  exact hbefore.append hafter

/-- Recovery from a bundle, with its tail and without. -/
theorem Recalls.recover (hc : Capacities ACCOUNTS RISK_ORDERS LEVELS ORDERS)
    (h : Recalls crc32c sha256 REPORTS first last bundle before after) :
    ∃ start recovered twin : Gateway ACCOUNTS RISK_ORDERS LEVELS ORDERS,
      recoverSnapshotAndTail crc32c sha256 REPORTS bundle.snapshot [] = .ok (.ok start) ∧
      recoverSnapshotAndTail crc32c sha256 REPORTS bundle.snapshot bundle.tail = .ok (.ok recovered) ∧
      Gateway.History REPORTS first before twin ∧ start.Twins twin ∧ recovered.Twins last := by
  obtain ⟨decoded, twin, logical, hdecode, happlied, hcut, htwin, hinvariant, hbefore, hafter⟩ := h.cut
  obtain ⟨records, htail, hrecords⟩ := h.tail
  obtain ⟨logical', hlast, hinvariant', hreplay⟩ := replay_of_history crc32c hc hafter htwin hinvariant
  obtain ⟨recovered, hrun, hrecovered⟩ :=
    hreplay decoded.gateway hcut records hrecords 0 (ReportBuffer.new REPORTS)
  refine ⟨decoded.gateway, recovered, twin, ?_, ?_, hbefore, ⟨logical, hcut, htwin, hinvariant⟩,
    ⟨logical', hrecovered, hlast, hinvariant'⟩⟩
  · exact recoverSnapshotAndTail_journalBytes hdecode happlied []
  · rw [htail, recoverSnapshotAndTail_journalBytes hdecode happlied]
    exact hrun

/-- An engine restores from a bundle, with the configuration of the first gateway. -/
theorem Recalls.restore (hc : Capacities ACCOUNTS RISK_ORDERS LEVELS ORDERS)
    (hsized : EngineBuilder.Sized ACCOUNTS RISK_ORDERS LEVELS ORDERS REPORTS)
    (haddressable : bundle.configuration.Addressable) (hstarted : first.Started)
    (hdescribes : EngineBuilder.Describes REPORTS bundle.configuration first)
    (h : Recalls crc32c sha256 REPORTS first last bundle before after) :
    ∃ recovered : Gateway ACCOUNTS RISK_ORDERS LEVELS ORDERS, recovered.Twins last ∧ recovered.Reachable ∧
      bundle.restore REPORTS crc32c sha256 bundle.configuration =
        .ok (.ok ⟨recovered, bundle.configuration⟩) := by
  obtain ⟨start, recovered, twin, hstart, hrecover, hbefore, htwins, hrecovered⟩ := h.recover hc
  obtain ⟨logical, hrep, hinvariant⟩ := hstarted.sound hc
  have htwin : twin.profile = first.profile := hbefore.profile hc hrep hinvariant
  have hlast : last.profile = first.profile := h.history.profile hc hrep hinvariant
  have hrestored := EngineBuilder.restoreConfigured_of_recover hsized haddressable
    ⟨hdescribes.valid, hdescribes.capacities, (htwins.profile.symm.trans htwin).trans hdescribes.profile⟩
    ⟨hdescribes.valid, hdescribes.capacities, (hrecovered.profile.symm.trans hlast).trans hdescribes.profile⟩
    hstart hrecover
  refine ⟨recovered, hrecovered, (EngineBuilder.Prepared.restoreConfigured hrestored).reachable.2, ?_⟩
  unfold RecoveryBundle.restore
  rw [hrestored]
  rfl

/-- The snapshot of a new gateway. -/
theorem recalls_first (hc : Capacities ACCOUNTS RISK_ORDERS LEVELS ORDERS) (hlevels : LEVELS < 2 ^ 32)
    (horders : ORDERS < 2 ^ 32) (hstarted : first.Started) (configuration : EngineConfig)
    {snapshot : Snapshot}
    (hsnapshot : encodeSnapshot sha256 first 0 = .ok (.ok snapshot)) :
    Recalls crc32c sha256 REPORTS first first (checkpoint configuration snapshot) [] [] := by
  obtain ⟨logical, hrep, hinvariant, hlimited⟩ := (Gateway.Sessions.start hstarted).limited hc
  have hfirst : (0 : U64).val + 1 = logical.expectedSequence.val := by
    obtain ⟨risk, instrument, _, hgateway⟩ := hstarted
    rw [← hrep.expectedSequence, hgateway]
    rfl
  obtain ⟨snapshot', restored, hsnapshot', _, hrestored, hdecode⟩ :=
    decodeSnapshot_encodeSnapshot hc.index hlevels horders
    ⟨hinvariant, hlimited, hrep.risk.length_le.1, hrep.risk.length_le.2⟩
      (hrep.exportState hc.index.addressable) hfirst
  rw [hsnapshot] at hsnapshot'
  obtain rfl := Except.ok.inj (Except.ok.inj hsnapshot')
  exact ⟨⟨_, first, logical, hdecode, hfirst, hrestored, hrep, hinvariant, .nil, .nil⟩, [], rfl, .nil⟩

/-- The tail with the whole records that an engine has left in its sink. -/
def follow (bundle : RecoveryBundle) (engine : EngineSystem ACCOUNTS RISK_ORDERS LEVELS ORDERS BATCH) :
    RecoveryBundle :=
  { bundle with tail := bundle.tail ++ engine.journal.sink.bytes.take (recordSize * engine.wholeRecords) }

theorem Recalls.follow (hc : Capacities ACCOUNTS RISK_ORDERS LEVELS ORDERS)
    (h : Recalls crc32c sha256 REPORTS first last bundle before after)
    {recovered : Gateway ACCOUNTS RISK_ORDERS LEVELS ORDERS} (htwins : recovered.Twins last)
    {engine : EngineSystem ACCOUNTS RISK_ORDERS LEVELS ORDERS BATCH}
    {transitions : List (Gateway.Transition ACCOUNTS RISK_ORDERS LEVELS ORDERS)}
    (hsound : EngineSystem.Sound crc32c REPORTS EVENTS recovered engine transitions) :
    ∃ last', Recalls crc32c sha256 REPORTS first last' (bundle.follow engine) before
      (after ++ engine.admissions.take engine.wholeRecords) := by
  obtain ⟨_, _, _, hjournal⟩ := hsound.journal
  obtain ⟨hwhole, _⟩ := take_of_isPrefix_journalBytes hjournal.persisted.stored
  obtain ⟨direct, hdirect⟩ := hsound.history_take hc engine.wholeRecords
  obtain ⟨last', hlast', _⟩ := htwins.history hc hdirect
  obtain ⟨decoded, twin, logical, hdecode, happlied, hcut, htwin, hinvariant, hbefore, hafter⟩ := h.cut
  obtain ⟨records, htail, hrecords⟩ := h.tail
  refine ⟨last', ⟨decoded, twin, logical, hdecode, happlied, hcut, htwin, hinvariant, hbefore,
    hafter.append hlast'⟩, records ++ engine.accepted.take engine.wholeRecords, ?_, ?_⟩
  · unfold RecoveryBundle.follow EngineSystem.wholeRecords
    rw [htail, journalBytes_append, hwhole]
  · exact List.rel_append hrecords (List.forall₂_take engine.wholeRecords hsound.journaled.carries)

/-- A snapshot of the engine replaces the bundle, if it decodes. -/
theorem Recalls.checkpoint (hc : Capacities ACCOUNTS RISK_ORDERS LEVELS ORDERS) (hlevels : LEVELS < 2 ^ 32)
    (horders : ORDERS < 2 ^ 32) (h : Recalls crc32c sha256 REPORTS first last bundle before after)
    {recovered : Gateway ACCOUNTS RISK_ORDERS LEVELS ORDERS} (htwins : recovered.Twins last)
    {system : CheckpointSystem ACCOUNTS RISK_ORDERS LEVELS ORDERS BATCH} {snapshot : Snapshot}
    (hcut : CheckpointSystem.Cut crc32c sha256 REPORTS recovered system snapshot)
    {decoded : DecodedSnapshot ACCOUNTS RISK_ORDERS LEVELS ORDERS}
    (hdecode : decodeSnapshot sha256 snapshot.bytes = .ok (.ok decoded)) (configuration : EngineConfig) :
    ∃ last', Recalls crc32c sha256 REPORTS first last' (checkpoint configuration snapshot)
      (before ++ after ++ system.engine.applied) [] := by
  obtain ⟨last', hlast', logical, hgateway, hrep, hinvariant⟩ := htwins.history hc hcut.history
  have happlied := hcut.applied
  rw [hgateway.expectedSequence] at happlied
  obtain ⟨hdecoded, hsame⟩ :=
    represents_of_decodeSnapshot hc.index hlevels horders hgateway hinvariant happlied hcut.encoded hdecode
  rw [← hsame] at happlied
  exact ⟨last', ⟨decoded, last', logical, hdecode, happlied, hdecoded, hrep, hinvariant,
    h.history.append hlast', .nil⟩, [], rfl, .nil⟩

/-! ## One engine after another -/

section Lineage

variable (crc32c : Bytes → U32) (sha256 : Bytes → Digest) (REPORTS EVENTS JOURNAL_BATCH : ℕ)
  (policy : FlushPolicy)

/-- An engine is restored from a bundle, and runs with its consumer, its worker and its snapshots. -/
def serve (bundle : RecoveryBundle) (actions : List CheckpointAction) :
    Run (Except BundleError (List (Option CheckpointAnswer) ×
      CheckpointSystem ACCOUNTS RISK_ORDERS LEVELS ORDERS BATCH)) := do
  match ← (bundle.restore REPORTS crc32c sha256 bundle.configuration :
      Run (Except BundleError (EngineBuilder ACCOUNTS RISK_ORDERS LEVELS ORDERS))) with
  | .error error => return .error error
  | .ok builder =>
    let outcome ← execute (CheckpointSystem.step crc32c sha256 REPORTS EVENTS JOURNAL_BATCH)
      ⟨EngineSystem.fresh BATCH builder policy, .idle⟩ actions
    return .ok outcome

/-- The bundles that come about from the first one, and the commands that were recorded until then: an engine
stops at any point and leaves whole records, or its snapshot becomes a bundle that was restored from. -/
inductive Lineage (BATCH : ℕ) (builder : EngineBuilder ACCOUNTS RISK_ORDERS LEVELS ORDERS) :
    RecoveryBundle → List Command → Prop where
  | first {snapshot : Snapshot} (hsnapshot : encodeSnapshot sha256 builder.gateway 0 = .ok (.ok snapshot)) :
      Lineage BATCH builder (checkpoint builder.configuration snapshot) []
  | crash {bundle : RecoveryBundle} {commands : List Command} {actions : List CheckpointAction}
      {answers : List (Option CheckpointAnswer)}
      {system : CheckpointSystem ACCOUNTS RISK_ORDERS LEVELS ORDERS BATCH}
      (h : Lineage BATCH builder bundle commands)
      (hrun : bundle.serve crc32c sha256 REPORTS EVENTS JOURNAL_BATCH policy actions =
        .ok (.ok (answers, system))) :
      Lineage BATCH builder (bundle.follow system.engine)
        (commands ++ system.engine.admissions.take system.engine.wholeRecords)
  | checkpoint {bundle : RecoveryBundle} {commands : List Command} {actions : List CheckpointAction}
      {answers : List (Option CheckpointAnswer)}
      {system system' : CheckpointSystem ACCOUNTS RISK_ORDERS LEVELS ORDERS BATCH} {snapshot : Snapshot}
      {restored : EngineBuilder ACCOUNTS RISK_ORDERS LEVELS ORDERS}
      (h : Lineage BATCH builder bundle commands)
      (hrun : bundle.serve crc32c sha256 REPORTS EVENTS JOURNAL_BATCH policy actions =
        .ok (.ok (answers, system)))
      (hcaptured : system.step crc32c sha256 REPORTS EVENTS JOURNAL_BATCH .snapshot =
        .ok (some (.captured (.ok snapshot)), system'))
      (hrestored : (checkpoint bundle.configuration snapshot).restore REPORTS crc32c
        sha256 bundle.configuration =
        .ok (.ok restored)) :
      Lineage BATCH builder (checkpoint bundle.configuration snapshot) (commands ++ system'.engine.applied)

end Lineage

end RecoveryBundle

/-- A built engine before its first call. -/
theorem CheckpointSystem.Sound.start (hc : Capacities ACCOUNTS RISK_ORDERS LEVELS ORDERS)
    {builder : EngineBuilder ACCOUNTS RISK_ORDERS LEVELS ORDERS} (hreachable : builder.gateway.Reachable)
    {engine : EngineSystem ACCOUNTS RISK_ORDERS LEVELS ORDERS BATCH}
    (hstart : EngineSystem.Starts REPORTS JOURNAL_BATCH builder engine) :
    Sound crc32c REPORTS EVENTS builder.gateway [] ⟨engine, .idle⟩ := by
  obtain ⟨_, _, _, hengine, _⟩ := hstart.sound hc hreachable crc32c EVENTS
  obtain ⟨_, _, policy, journal, hjournal, rfl⟩ := hstart.fresh_parts
  obtain ⟨_, hcoherent⟩ := @Journal.System.start_eq_ok crc32c _ _ _ _ hjournal
  obtain ⟨worker, _, hsystem⟩ := except_bind_eq_ok.mp hjournal
  obtain rfl := Except.ok.inj hsystem
  have hnew : (JournalStatus.new builder.gateway.expectedSequence).poisoned = false ∧
      (JournalStatus.new builder.gateway.expectedSequence).shutdownComplete = false := ⟨rfl, rfl⟩
  refine ⟨⟨[], hengine⟩, ⟨fun h ↦ ?_, fun h ↦ ?_⟩, .start hcoherent, fun h ↦ absurd h (by simp), ?_⟩
  · exact absurd (hnew.1.symm.trans h) (by simp)
  · exact absurd (hnew.2.symm.trans h) (by simp)
  · simp [JournalStatus.new]

namespace RecoveryBundle

variable {first last : Gateway ACCOUNTS RISK_ORDERS LEVELS ORDERS} {bundle : RecoveryBundle}
  {before after : List Command}

/-- No run of an engine that is restored from a bundle fails to return. -/
theorem Recalls.serve (hd : CheckpointSystem.Dimensions ACCOUNTS RISK_ORDERS LEVELS ORDERS
  BATCH REPORTS JOURNAL_BATCH)
    (hsized : EngineBuilder.Sized ACCOUNTS RISK_ORDERS LEVELS ORDERS REPORTS)
    (haddressable : bundle.configuration.Addressable) (hstarted : first.Started)
    (hdescribes : EngineBuilder.Describes REPORTS bundle.configuration first)
    (h : Recalls crc32c sha256 REPORTS first last bundle before after) (EVENTS : ℕ) (policy : FlushPolicy)
    (actions : List CheckpointAction) :
    ∃ (recovered : Gateway ACCOUNTS RISK_ORDERS LEVELS ORDERS) (answers : List (Option CheckpointAnswer))
      (system : CheckpointSystem ACCOUNTS RISK_ORDERS LEVELS ORDERS BATCH),
      recovered.Twins last ∧ 0 < recovered.expectedSequence.val ∧
      bundle.serve crc32c sha256 REPORTS EVENTS JOURNAL_BATCH policy actions = .ok (.ok (answers, system)) ∧
      CheckpointSystem.Sound crc32c REPORTS EVENTS recovered answers system := by
  obtain ⟨recovered, htwins, hreachable, hrestore⟩ :=
    h.restore hd.capacities hsized haddressable hstarted hdescribes
  have hstart : CheckpointSystem.Sound crc32c REPORTS EVENTS recovered []
      (⟨EngineSystem.fresh BATCH ⟨recovered, bundle.configuration⟩ policy, .idle⟩ :
        CheckpointSystem ACCOUNTS RISK_ORDERS LEVELS ORDERS BATCH) :=
    CheckpointSystem.Sound.start hd.capacities hreachable
      (EngineSystem.fresh_starts hd.ordinals hd.batch hd.worker.ne' ⟨recovered, bundle.configuration⟩ policy)
  obtain ⟨logical, hrep, hinvariant⟩ := hreachable.sound hd.capacities
  have hpos : 0 < recovered.expectedSequence.val := by
    rw [hrep.expectedSequence]
    exact hinvariant.expected_pos
  obtain ⟨answers, system, hrun, hsound⟩ := hstart.executes sha256 hd hpos actions
  refine ⟨recovered, answers, system, htwins, hpos, ?_, hsound⟩
  unfold RecoveryBundle.serve
  rw [hrestore, Run.ok_bind]
  dsimp only
  rw [hrun]
  rfl

/-- What was restored from has been decoded. -/
theorem decodes_of_restore {expected : EngineConfig}
    {restored : EngineBuilder ACCOUNTS RISK_ORDERS LEVELS ORDERS}
    (h : bundle.restore REPORTS crc32c sha256 expected = .ok (.ok restored)) :
    ∃ decoded : DecodedSnapshot ACCOUNTS RISK_ORDERS LEVELS ORDERS,
      decodeSnapshot sha256 bundle.snapshot = .ok (.ok decoded) := by
  obtain ⟨result, hconfigured, hresult⟩ := Run.bind_eq_ok.mp h
  cases result with
  | error error => cases hresult
  | ok builder =>
    obtain ⟨_, started, hrestore, _⟩ := EngineConfig.restoreConfigured_eq_ok hconfigured
    unfold EngineBuilder.restore at hrestore
    split at hrestore
    · cases hrestore
    obtain ⟨recovered, hrecover, hrest⟩ := Run.bind_eq_ok.mp hrestore
    cases recovered with
    | error error => cases hrest
    | ok gateway =>
      obtain ⟨decoded, _, _, hdecode, _⟩ := exists_history_of_recover hrecover
      exact ⟨decoded, hdecode⟩

/-- Engines that follow a first one keep its configuration, and their bundles what they have recorded. -/
theorem Lineage.recalls {policy : FlushPolicy}
    (hd : CheckpointSystem.Dimensions ACCOUNTS RISK_ORDERS LEVELS ORDERS BATCH REPORTS JOURNAL_BATCH)
    (hsized : EngineBuilder.Sized ACCOUNTS RISK_ORDERS LEVELS ORDERS REPORTS)
    {builder : EngineBuilder ACCOUNTS RISK_ORDERS LEVELS ORDERS} (hstarted : builder.gateway.Started)
    (haddressable : builder.configuration.Addressable)
    (hdescribes : EngineBuilder.Describes REPORTS builder.configuration builder.gateway)
    {commands : List Command}
    (h : Lineage crc32c sha256 REPORTS EVENTS JOURNAL_BATCH policy BATCH builder bundle commands) :
    bundle.configuration = builder.configuration ∧
      ∃ last before after, commands = before ++ after ∧
        Recalls crc32c sha256 REPORTS builder.gateway last bundle before after := by
  induction h with
  | first hsnapshot =>
    exact ⟨rfl, builder.gateway, [], [], rfl,
      recalls_first hd.capacities hd.levels_lt hd.orders_lt hstarted builder.configuration hsnapshot⟩
  | @crash bundle commands actions answers system _ hrun ih =>
    obtain ⟨hsame, last, before, after, rfl, hrecalls⟩ := ih
    obtain ⟨recovered, answers', system', htwins, _, hrun', hsound⟩ := hrecalls.serve hd hsized
      (hsame ▸ haddressable) hstarted (hsame ▸ hdescribes) EVENTS policy actions
    rw [hrun] at hrun'
    obtain ⟨rfl, rfl⟩ := Prod.mk.inj (Except.ok.inj (Except.ok.inj hrun'))
    obtain ⟨transitions, hengine⟩ := hsound.engine
    obtain ⟨last', hrecalls'⟩ := hrecalls.follow hd.capacities htwins hengine
    exact ⟨hsame, last', before, _, List.append_assoc _ _ _, hrecalls'⟩
  | @checkpoint bundle commands actions answers system system' snapshot restored _ hrun
    hcaptured hrestored ih =>
    obtain ⟨hsame, last, before, after, rfl, hrecalls⟩ := ih
    obtain ⟨recovered, answers', system₁, htwins, hpos, hrun', hsound⟩ := hrecalls.serve hd hsized
      (hsame ▸ haddressable) hstarted (hsame ▸ hdescribes) EVENTS policy actions
    rw [hrun] at hrun'
    obtain ⟨rfl, rfl⟩ := Prod.mk.inj (Except.ok.inj (Except.ok.inj hrun'))
    obtain ⟨reply, system₂, hstep, _, hcut, _⟩ := hsound.step sha256 hd hpos .snapshot
    rw [hcaptured] at hstep
    obtain ⟨rfl, rfl⟩ := Prod.mk.inj (Except.ok.inj hstep)
    obtain ⟨decoded, hdecode⟩ := decodes_of_restore hrestored
    obtain ⟨last', hrecalls'⟩ := hrecalls.checkpoint hd.capacities hd.levels_lt hd.orders_lt htwins
      (hcut snapshot rfl) hdecode bundle.configuration
    exact ⟨hsame, last', _, [], (List.append_nil _).symm, hrecalls'⟩

end RecoveryBundle

theorem EngineConfig.addressable_of_capacities (hc : IndexCapacities ACCOUNTS RISK_ORDERS LEVELS ORDERS)
    (hlevels : LEVELS < 2 ^ 32) (horders : ORDERS < 2 ^ 32) (hreports : REPORTS < 2 ^ 16)
    {configuration : EngineConfig}
    (h : configuration.capacities.toList = [ACCOUNTS, RISK_ORDERS, LEVELS, ORDERS, REPORTS]) :
    configuration.Addressable := by
  intro capacity hcapacity
  rw [← Vector.mem_toList_iff, h] at hcapacity
  have haccounts := hc.accounts
  have hreservations := hc.reservations
  unfold indexPlanes at haccounts hreservations
  fin_cases hcapacity
  all_goals omega

/-- What holds of the shape of a new engine, and of the engine itself. -/
theorem EngineBuilder.new_prepares (hc : IndexCapacities ACCOUNTS RISK_ORDERS LEVELS ORDERS)
    (hordinals : REPORTS + 1 < 2 ^ 16) (hbatch : REPORTS + 2 ≤ BATCH) (hworker : 0 < JOURNAL_BATCH)
    {instrument : InstrumentId} {accounts : List (AccountId × RiskLimits)}
    {builder : EngineBuilder ACCOUNTS RISK_ORDERS LEVELS ORDERS}
    (hnew : EngineBuilder.new REPORTS instrument accounts = .ok (.ok builder)) :
    CheckpointSystem.Dimensions ACCOUNTS RISK_ORDERS LEVELS ORDERS BATCH REPORTS JOURNAL_BATCH ∧
      EngineBuilder.Sized ACCOUNTS RISK_ORDERS LEVELS ORDERS REPORTS ∧ builder.gateway.Started ∧
      builder.configuration.Addressable ∧
      EngineBuilder.Describes REPORTS builder.configuration builder.gateway := by
  obtain ⟨hsized, hstarted⟩ := EngineBuilder.new_started hnew
  have hbook := hc.book
  unfold Book.indexCapacity Book.orderIndexPlanes at hbook
  have hlevels := Nat.le_mul_of_pos_right LEVELS hsized.orders
  have horders := Nat.le_mul_of_pos_left ORDERS hsized.levels
  have hcapacities : Capacities ACCOUNTS RISK_ORDERS LEVELS ORDERS :=
    ⟨hsized.orders, hc.book, hc.accounts, hc.reservations⟩
  have hdescribes := EngineBuilder.new_describes hc.accounts hnew
  exact ⟨⟨hcapacities, by omega, by omega, hordinals, hbatch, hworker⟩, hsized, hstarted,
    EngineConfig.addressable_of_capacities hc (by omega) (by omega) (by omega) hdescribes.capacities,
    hdescribes⟩

def RecoveryBundle.sampleFirst : RecoveryBundle :=
  checkpoint EngineBuilder.sampleBuilder.configuration EngineConfig.sampleSnapshot

def RecoveryBundle.sampleRun :
    Run (Except BundleError (List (Option CheckpointAnswer) × CheckpointSystem 1 1 1 1 3)) :=
  sampleFirst.serve (fun _ ↦ 0) EngineConfig.sampleDigest 1 2 1 .everyBatch
    (EngineSystem.crashActions.map .engine)

set_option maxRecDepth 8000 in
theorem RecoveryBundle.sampleRun_records :
    (sampleRun.toOption.bind Except.toOption).map (fun outcome ↦
      outcome.2.engine.admissions.take outcome.2.engine.wholeRecords) = some [Gateway.sampleOrder] := by
  decide

theorem RecoveryBundle.sampleLineage :
    ∃ bundle, Lineage (fun _ ↦ 0) EngineConfig.sampleDigest 1 2 1 .everyBatch 3 EngineBuilder.sampleBuilder
      bundle [Gateway.sampleOrder] := by
  have hsnapshot : encodeSnapshot EngineConfig.sampleDigest EngineBuilder.sampleBuilder.gateway 0 =
      .ok (.ok EngineConfig.sampleSnapshot) := Run.eq_ok_ok_get EngineConfig.sampleSnapshot_returns
  obtain ⟨⟨answers, system⟩, hrun, hcommands⟩ := Option.map_eq_some_iff.mp sampleRun_records
  have hserve : sampleRun = .ok (.ok (answers, system)) := by
    obtain ⟨result, hresult, hoption⟩ := Option.bind_eq_some_iff.mp hrun
    cases hsample : sampleRun with
    | error fault =>
      rw [hsample] at hresult
      cases hresult
    | ok returned =>
      rw [hsample] at hresult
      obtain rfl := Option.some.inj hresult
      cases returned with
      | error error => cases hoption
      | ok outcome => rw [Option.some.inj hoption]
  have hlineage := Lineage.crash (.first hsnapshot) hserve
  rw [List.nil_append] at hlineage
  dsimp only at hcommands
  rw [hcommands] at hlineage
  exact ⟨_, hlineage⟩

end DeterministicExchange
