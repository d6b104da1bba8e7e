import DeterministicExchange.Engine.Lineage

/-!
# A client that sends again

A client numbers its commands and sends them until they are recorded, over any
number of engines that stop. What is recorded is always an initial part of what
it sends; a command that is recorded already is refused without an effect, and
the rest leads where the whole stream would have led one engine.
-/

namespace DeterministicExchange

open Machine Codec Risk Journal Recovery

variable {ACCOUNTS RISK_ORDERS LEVELS ORDERS BATCH REPORTS EVENTS JOURNAL_BATCH : ℕ}

/-- The commands of a client, numbered from one; the last number has a successor. -/
structure Numbered (client : List Command) : Prop where
  sequences : client.map (fun command ↦ command.sequence.val) = List.range' 1 client.length
  room : client.length + 1 < 2 ^ 64

namespace Numbered

variable {client commands : List Command}

theorem sequence_of_getElem? (h : Numbered client) {i : ℕ} {command : Command}
    (hget : client[i]? = some command) : command.sequence.val = 1 + i := by
  have hmap : (client.map fun command ↦ command.sequence.val)[i]? = some command.sequence.val := by
    rw [List.getElem?_map, hget]
    rfl
  obtain ⟨hlt, _⟩ := List.getElem?_eq_some_iff.mp hget
  rw [h.sequences, List.getElem?_range' hlt, Nat.one_mul] at hmap
  exact (Option.some.inj hmap).symm

/-- Commands of the stream that are numbered from one are its first ones. -/
theorem eq_take (h : Numbered client) (hclient : ∀ command ∈ commands, command ∈ client)
    (hsequences : commands.map (fun command ↦ command.sequence.val) = List.range' 1 commands.length) :
    commands = client.take commands.length := by
  have hget (i : ℕ) (command : Command) (hcommand : commands[i]? = some command) :
      client[i]? = some command := by
    obtain ⟨hlt, _⟩ := List.getElem?_eq_some_iff.mp hcommand
    have hmap : (commands.map fun command ↦ command.sequence.val)[i]? = some command.sequence.val := by
      rw [List.getElem?_map, hcommand]
      rfl
    rw [hsequences, List.getElem?_range' hlt, Nat.one_mul] at hmap
    obtain ⟨j, hj⟩ := List.getElem?_of_mem (hclient command (List.mem_of_getElem? hcommand))
    have hindex := h.sequence_of_getElem? hj
    have hsame : j = i := by
      have hi := Option.some.inj hmap
      omega
    rwa [← hsame]
  apply List.ext_getElem?
  intro i
  rw [List.getElem?_take]
  by_cases hlt : i < commands.length
  · rw [if_pos hlt]
    exact (hget i _ (List.getElem?_eq_getElem hlt)).symm ▸ List.getElem?_eq_getElem hlt
  · rw [if_neg hlt]
    exact List.getElem?_eq_none (Nat.le_of_not_lt hlt)

end Numbered

namespace Gateway

variable {gateway : Gateway ACCOUNTS RISK_ORDERS LEVELS ORDERS} {logical : Logical.Gateway}

/-- Commands with the next numbers are all accepted. -/
theorem Represents.exists_history (hc : Capacities ACCOUNTS RISK_ORDERS LEVELS ORDERS)
    (h : gateway.Represents logical) (hinvariant : logical.Invariant LEVELS ORDERS) (REPORTS : ℕ)
    {commands : List Command}
    (hsequences : commands.map (fun command ↦ command.sequence.val) =
      List.range' logical.expectedSequence.val commands.length)
    (hroom : logical.expectedSequence.val + commands.length < 2 ^ 64) :
    ∃ last, History REPORTS gateway commands last := by
  induction commands generalizing gateway logical with
  | nil => exact ⟨gateway, .nil⟩
  | cons command commands ih =>
    rw [List.map_cons, List.length_cons, List.range'_succ, List.cons.injEq] at hsequences
    rw [List.length_cons] at hroom
    obtain ⟨hfirst, hrest⟩ := hsequences
    have haccepts : gateway.Accepts command := by
      have hadd : logical.expectedSequence.val + (1 : U64).val < 2 ^ 64 := by
        show logical.expectedSequence.val + 1 < 2 ^ 64
        omega
      obtain ⟨next, hnext, _⟩ := Unsigned.checkedAdd_of_lt hadd
      unfold Accepts checkSequence
      rw [h.expectedSequence, if_neg (not_not_intro (Fin.ext hfirst)), hnext]
      exact ⟨next, rfl⟩
    obtain ⟨next, reports, hrun, _⟩ := h.processCommand hc command (ReportBuffer.new REPORTS)
    obtain ⟨_, _, logical', hrep', hinvariant', hnext, _⟩ := h.accepted hc hinvariant haccepts hrun
    obtain ⟨last, hhistory⟩ := ih hrep' hinvariant' (by rw [hnext]; exact hrest) (by omega)
    exact ⟨last, .cons haccepts hrun hhistory⟩

end Gateway

open RecoveryBundle in
/-- A client that numbers its commands may send them again and again to engines that follow one another: what
they have recorded are the first commands of its stream, one that is recorded is refused without an
effect, and
the restored engine ends with the rest of the stream where the first one would have ended with all of it. -/
theorem lineage_resumes (crc32c : Bytes → U32) (sha256 : Bytes → Digest)
    (hc : IndexCapacities ACCOUNTS RISK_ORDERS LEVELS ORDERS) {REPORTS JOURNAL_BATCH : ℕ}
    (hordinals : REPORTS + 1 < 2 ^ 16) (hbatch : REPORTS + 2 ≤ BATCH) (hworker : 0 < JOURNAL_BATCH)
    (EVENTS : ℕ)
    (policy : FlushPolicy) {instrument : InstrumentId} {accounts : List (AccountId × RiskLimits)}
    {builder : EngineBuilder ACCOUNTS RISK_ORDERS LEVELS ORDERS}
    (hnew : EngineBuilder.new REPORTS instrument accounts = .ok (.ok builder)) {bundle : RecoveryBundle}
    {commands : List Command}
    (h : Lineage crc32c sha256 REPORTS EVENTS JOURNAL_BATCH policy BATCH builder bundle commands)
    {client : List Command} (hnumbered : Numbered client)
    (hclient : ∀ command ∈ commands, command ∈ client) :
    ∃ restored : EngineBuilder ACCOUNTS RISK_ORDERS LEVELS ORDERS,
      bundle.restore REPORTS crc32c sha256 builder.configuration = .ok (.ok restored) ∧
      commands = client.take commands.length ∧
      restored.gateway.expectedSequence.val = commands.length + 1 ∧
      (∀ command ∈ commands, ∀ reports : ReportBuffer REPORTS,
        restored.gateway.processCommand command reports =
          .ok (.error (.sequence restored.gateway.expectedSequence command.sequence), restored.gateway,
            reports.clear)) ∧
      ∃ (resumed direct : Gateway ACCOUNTS RISK_ORDERS LEVELS ORDERS) (state : GatewayState LEVELS ORDERS),
        Gateway.History REPORTS restored.gateway (client.drop commands.length) resumed ∧
        Gateway.History REPORTS builder.gateway client direct ∧
        resumed.exportState = .ok state ∧ direct.exportState = .ok state := by
  obtain ⟨hd, hsized, hstarted, haddressable, hdescribes⟩ :=
    EngineBuilder.new_prepares hc hordinals hbatch hworker hnew
  have hcapacities := hd.capacities
  obtain ⟨hsame, last, before, after, rfl, hrecalls⟩ := h.recalls hd hsized hstarted haddressable hdescribes
  rw [← hsame] at haddressable hdescribes
  obtain ⟨recovered, htwins, _, hrestore⟩ :=
    hrecalls.restore hcapacities hsized haddressable hstarted hdescribes
  rw [hsame] at hrestore
  obtain ⟨logical, hrep, hinvariant⟩ := hstarted.sound hcapacities
  have hfirst : logical.expectedSequence.val = 1 := by
    rw [← hrep.expectedSequence, hstarted.expectedSequence]
  have hrecorded := hrecalls.history
  have hsequences := hrep.history_sequences hcapacities hrecorded hinvariant
  rw [hfirst] at hsequences
  have htake := hnumbered.eq_take hclient hsequences
  have hexpected : recovered.expectedSequence.val = (before ++ after).length + 1 := by
    rw [htwins.expectedSequence, hrecorded.expectedSequence hcapacities ⟨logical, hrep, hinvariant⟩,
      hstarted.expectedSequence, Nat.add_comm]
  -- The whole stream has a history from the first engine, and it passes through what was recorded.
  obtain ⟨direct, hdirect⟩ := hrep.exists_history hcapacities hinvariant REPORTS
    (by rw [hfirst]; exact hnumbered.sequences) (by have := hnumbered.room; omega)
  rw [← List.take_append_drop (before ++ after).length client, ← htake] at hdirect
  obtain ⟨middle, hmiddle, hrest⟩ := hdirect.of_append
  obtain rfl : middle = last := hmiddle.unique hrecorded
  obtain ⟨resumed, hresumed, hends⟩ := htwins.symm.history hcapacities hrest
  obtain ⟨state, hstate, hstate'⟩ := hends.exportState hcapacities
  refine ⟨_, hrestore, htake, hexpected, fun command hmem reports ↦ ?_, resumed, direct, state, hresumed, ?_,
    hstate', hstate⟩
  · obtain ⟨i, hget⟩ := List.getElem?_of_mem hmem
    obtain ⟨hlt, _⟩ := List.getElem?_eq_some_iff.mp hget
    rw [htake, List.getElem?_take, if_pos hlt] at hget
    have hsequence := hnumbered.sequence_of_getElem? hget
    have hne : command.sequence ≠ recovered.expectedSequence := by
      intro heq
      rw [heq] at hsequence
      omega
    exact Gateway.processCommand_of_not_admitted (Gateway.checkSequence_of_ne hne)
  · rw [← List.take_append_drop (before ++ after).length client, ← htake]
    exact hmiddle.append hrest

/-- The client of an engine that has recorded the first of two commands. -/
theorem lineage_resumes_sample :
    ∃ (restored : EngineBuilder 1 1 1 1) (resumed direct : Gateway 1 1 1 1) (state : GatewayState 1 1),
      restored.gateway.processCommand Gateway.sampleOrder (ReportBuffer.new 1) =
        .ok (.error (.sequence restored.gateway.expectedSequence 1), restored.gateway, ReportBuffer.new 1) ∧
      Gateway.History 1 restored.gateway [Gateway.sampleCancel 2] resumed ∧
      Gateway.History 1 EngineBuilder.sampleBuilder.gateway
        [Gateway.sampleOrder, Gateway.sampleCancel 2] direct ∧
      resumed.exportState = .ok state ∧ direct.exportState = .ok state := by
  obtain ⟨bundle, hlineage⟩ := RecoveryBundle.sampleLineage
  have hnumbered : Numbered [Gateway.sampleOrder, Gateway.sampleCancel 2] := ⟨rfl, by decide⟩
  obtain ⟨restored, _, _, _, hrefused, resumed, direct, state, hresumed, hdirect, hstate, hstate'⟩ :=
    lineage_resumes (fun _ ↦ 0) EngineConfig.sampleDigest ⟨by decide, by decide, by decide⟩ (by decide)
      (by decide) one_pos 2 .everyBatch EngineBuilder.sampleBuilder_new hlineage hnumbered
      (by decide)
  exact ⟨restored, resumed, direct, state, hrefused _ List.mem_cons_self _, hresumed,
    hdirect, hstate, hstate'⟩

end DeterministicExchange
