import DeterministicExchange.Gateway.Gateway
import DeterministicExchange.Wire.RoundTrip

/-!
# Frames and commands

Processing a frame is parsing it and processing the command it encodes. A frame is
accepted exactly when it is the encoding of a command.
-/

namespace DeterministicExchange

open Machine Wire

namespace Gateway

variable {ACCOUNTS RISK_ORDERS LEVELS ORDERS_PER_LEVEL REPORTS : ℕ}

/-- An accepted frame is processed as the command it reads as. -/
theorem processFrame_of_parse (gateway : Gateway ACCOUNTS RISK_ORDERS LEVELS ORDERS_PER_LEVEL)
    (reports : ReportBuffer REPORTS) {frame : Codec.Bytes} {message : BorrowedMessage}
    {command : Command} (hparse : parseMessage frame = .ok (.ok message))
    (hcommand : message.toCommand = .ok command) :
    gateway.processFrame frame reports = gateway.processCommand command reports := by
  have hsequence := sequence_of_toCommand hcommand
  unfold processFrame processCommand
  simp only [hparse, hsequence, hcommand, Run.ok_bind, Run.pure_eq_ok]

end Gateway

/-- What a frame denotes: the parser returns on every byte string; it accepts exactly the encodings
of commands, each of one command only; the accepted message reads as that command and carries its
sequence; and every gateway processes the frame as that command. -/
theorem Wire.parseMessage_accepts_encodings (frame : Codec.Bytes) :
    (∃ result, parseMessage frame = .ok result) ∧
    ((∃ message, parseMessage frame = .ok (.ok message)) ↔ ∃ command, encodeCommand command = frame) ∧
    (∀ message, parseMessage frame = .ok (.ok message) →
      ∃ command, message.toCommand = .ok command ∧ message.sequence = .ok command.sequence ∧
        encodeCommand command = frame ∧ (∀ other, encodeCommand other = frame → other = command) ∧
        ∀ (ACCOUNTS RISK_ORDERS LEVELS ORDERS_PER_LEVEL REPORTS : ℕ)
          (gateway : Gateway ACCOUNTS RISK_ORDERS LEVELS ORDERS_PER_LEVEL)
          (reports : ReportBuffer REPORTS),
          gateway.processFrame frame reports = gateway.processCommand command reports) ∧
    ∀ command, ∃ message, parseMessage (encodeCommand command) = .ok (.ok message) ∧
      message.toCommand = .ok command := by
  have hread : ∀ message, parseMessage frame = .ok (.ok message) →
      ∃ command, message.toCommand = .ok command ∧ encodeCommand command = frame := by
    intro message hparse
    obtain ⟨error, herror⟩ | ⟨other, command, hother, hcommand, hencode⟩ := parseMessage_cases frame
    · rw [hparse] at herror
      cases herror
    · rw [hparse] at hother
      cases hother
      exact ⟨command, hcommand, hencode⟩
  refine ⟨?_, ⟨?_, ?_⟩, ?_, ?_⟩
  · obtain ⟨error, herror⟩ | ⟨message, _, hparse, _⟩ := parseMessage_cases frame
    · exact ⟨_, herror⟩
    · exact ⟨_, hparse⟩
  · intro ⟨message, hparse⟩
    obtain ⟨command, _, hencode⟩ := hread message hparse
    exact ⟨command, hencode⟩
  · intro ⟨command, hencode⟩
    exact ⟨messageOf command, by rw [← hencode, parseMessage_encodeCommand]⟩
  · intro message hparse
    obtain ⟨command, hcommand, hencode⟩ := hread message hparse
    refine ⟨command, hcommand, sequence_of_toCommand hcommand, hencode, ?_, ?_⟩
    · intro other hother
      exact encodeCommand_injective (hother.trans hencode.symm)
    · intro _ _ _ _ _ gateway reports
      exact gateway.processFrame_of_parse reports hparse hcommand
  · intro command
    exact ⟨messageOf command, parseMessage_encodeCommand command, toCommand_messageOf command⟩

end DeterministicExchange
