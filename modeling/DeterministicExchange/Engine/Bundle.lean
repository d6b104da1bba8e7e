import DeterministicExchange.Engine.Config
import DeterministicExchange.Storage.Disk

/-!
# Recovery bundles

A bundle is a directory with the configuration, a snapshot and a journal tail. It
counts only once its completion marker is there: the marker is written last, and
carries a digest of the three files, each with its length before it.
-/

namespace DeterministicExchange

open Machine Codec Recovery Storage

inductive BundleError where
  | io (error : IoError)
  | incomplete
  | integrityMismatch
  | configuration (error : ConfigError)
  | recovery (error : BuildError)
  deriving DecidableEq

structure RecoveryBundle where
  configuration : EngineConfig
  snapshot : Bytes
  tail : Bytes
  deriving DecidableEq

abbrev BundleProgram : Type → Type := ExceptT BundleError (Disk.FileProgram Bytes U8)

/-- A call whose refusal ends the program. -/
def BundleError.call {α : Type} (program : Disk.FileProgram Bytes U8 (Except IoError α)) : BundleProgram α :=
  ExceptT.mk (program >>= fun answer ↦ pure (answer.mapError io))

namespace RecoveryBundle

def configName : Bytes := toUtf8 "config.v1".toList

def snapshotName : Bytes := toUtf8 "snapshot.v1".toList

def tailName : Bytes := toUtf8 "tail.v1".toList

def committedName : Bytes := toUtf8 "COMMITTED".toList

def checkpoint (configuration : EngineConfig) (snapshot : Snapshot) : RecoveryBundle :=
  ⟨configuration, snapshot.bytes, []⟩

def domain : Bytes := toUtf8 "deterministic-exchange bundle v1\x00".toList

def magic : Bytes := toUtf8 "HFTBUNDLE 1\n".toList

/-- The length as sixteen bytes, and the bytes. -/
def framed (bytes : Bytes) : Bytes := beBytes 16 bytes.length ++ bytes

/-- What the digest of the marker is taken of. -/
def hashed (bundle : RecoveryBundle) : Bytes :=
  domain ++ framed bundle.configuration.encode ++ framed bundle.snapshot ++ framed bundle.tail

def marker (sha256 : Bytes → Digest) (bundle : RecoveryBundle) : Bytes := magic ++ (sha256 bundle.hashed).val

def writeNew (path : Path Bytes) (bytes : Bytes) : BundleProgram Unit := do
  let file ← BundleError.call (Disk.createNew path)
  BundleError.call (Disk.writeAll file bytes)
  BundleError.call (Disk.syncAll file)

def syncDirectory (path : Path Bytes) : BundleProgram Unit :=
  BundleError.call (Disk.syncPath path)

/-- The parent is synchronized only if the path names it. -/
def syncParent (destination : Path Bytes) : BundleProgram Unit :=
  match destination.parent.filter fun path ↦ !path.isEmpty with
  | some parent => syncDirectory parent
  | none => pure ()

/-- What follows the creation of the directory. -/
def fill (sha256 : Bytes → Digest) (bundle : RecoveryBundle) (destination : Path Bytes) :
    BundleProgram Unit := do
  writeNew (destination.join configName) bundle.configuration.encode
  writeNew (destination.join snapshotName) bundle.snapshot
  writeNew (destination.join tailName) bundle.tail
  syncDirectory destination
  writeNew (destination.join committedName) (bundle.marker sha256)
  syncDirectory destination
  syncParent destination

def publishNew (sha256 : Bytes → Digest) (bundle : RecoveryBundle) (destination : Path Bytes) :
    BundleProgram Unit :=
  match bundle.configuration.validate with
  | .error error => throw (.configuration error)
  | .ok () => do
    BundleError.call (Disk.createDir destination)
    bundle.fill sha256 destination

/-- What follows the reading of the marker. -/
def readFiles (sha256 : Bytes → Digest) (directory : Path Bytes) (marker : Bytes) :
    BundleProgram RecoveryBundle := do
  let encoded ← BundleError.call (Disk.read (directory.join configName))
  match EngineConfig.decode encoded with
  | .error error => throw (.configuration error)
  | .ok configuration =>
    let snapshot ← BundleError.call (Disk.read (directory.join snapshotName))
    let tail ← BundleError.call (Disk.read (directory.join tailName))
    let bundle : RecoveryBundle := ⟨configuration, snapshot, tail⟩
    if marker ≠ bundle.marker sha256 then throw .integrityMismatch
    else return bundle

def read (sha256 : Bytes → Digest) (directory : Path Bytes) : BundleProgram RecoveryBundle := do
  let marker ← BundleError.call (Disk.read (directory.join committedName))
  if !magic.isPrefixOf marker then throw .incomplete
  else readFiles sha256 directory marker

/-- Recovers through the boundary of the configured engine. -/
def restore {ACCOUNTS RISK_ORDERS LEVELS ORDERS : ℕ} (REPORTS : ℕ) (crc32c : Bytes → U32)
    (sha256 : Bytes → Digest) (bundle : RecoveryBundle) (expected : EngineConfig) :
    Run (Except BundleError (EngineBuilder ACCOUNTS RISK_ORDERS LEVELS ORDERS)) := do
  let restored ← EngineBuilder.restoreConfigured REPORTS crc32c sha256 expected bundle.configuration.encode
    bundle.snapshot bundle.tail
  return restored.mapError .recovery

end RecoveryBundle

end DeterministicExchange
