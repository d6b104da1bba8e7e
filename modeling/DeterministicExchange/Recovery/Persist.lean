import DeterministicExchange.Codec.Text
import DeterministicExchange.Recovery.Snapshot
import DeterministicExchange.Storage.Disk

/-!
# Publishing snapshots

A snapshot is written to a temporary file, synchronized, and then published by a
second name for the file at its destination, which must not exist. Writers of one
destination use temporary files of their own, and the first link wins; a reader
finds nothing at the destination or the whole snapshot of the winner.
-/

namespace DeterministicExchange.Recovery

open Machine Codec Storage

/-- Errors tell whether the snapshot has been published. -/
inductive SnapshotPersistError where
  | beforePublication (error : IoError)
  | published (error : IoError)
  deriving DecidableEq

namespace Persist

/-- The last component of a path, unless it leads upwards or nowhere. -/
def fileName (path : Storage.Path Bytes) : Option Bytes :=
  path.names.head?.filter fun name ↦ name ≠ toUtf8 ['.', '.'] ∧ name ≠ toUtf8 ['.']

/-- The number of the process and the counter of the process make the name. -/
def temporaryName (name : Bytes) (process : U32) (suffix : U64) : Bytes :=
  toUtf8 ['.'] ++ name ++ toUtf8 (".tmp-".toList ++ natText process.val ++ '-' :: natText suffix.val)

/-- The closure that ends with the publication. -/
def publish (temporary path : Storage.Path Bytes) (bytes : Bytes) :
    ExceptT IoError (Disk.FileProgram Bytes U8) Unit := do
  let file ← ExceptT.mk (Disk.createNew temporary)
  ExceptT.mk (Disk.writeAll file bytes)
  ExceptT.mk (Disk.syncAll file)
  ExceptT.mk (Disk.hardLink temporary path)

/-- What follows the publication. -/
def settle (temporary parent : Storage.Path Bytes) :
    Disk.FileProgram Bytes U8 (Except SnapshotPersistError Unit) := do
  match ← Disk.removeFile temporary with
  | .error error => return .error (.published error)
  | .ok () =>
    match ← Disk.syncPath parent with
    | .error error => return .error (.published error)
    | .ok () => return .ok ()

/-- A failure before the publication leaves no temporary file, if its removal does not fail too. -/
def abandon (temporary : Storage.Path Bytes) (error : IoError) :
    Disk.FileProgram Bytes U8 (Except SnapshotPersistError Unit) := do
  let _ ← Disk.removeFile temporary
  return .error (.beforePublication error)

end Persist

open Persist in
/-- `suffix` is the value of the counter of the process. -/
def persistSnapshotNew (process : U32) (suffix : U64) (path : Storage.Path Bytes) (snapshot : Snapshot) :
    Disk.FileProgram Bytes U8 (Except SnapshotPersistError Unit) := do
  if ← Disk.pathExists path then
    return .error (.beforePublication (.custom .alreadyExists "snapshot destination already exists"))
  else
    let parent := path.parent.getD ⟨false, [toUtf8 ['.']]⟩
    match (fileName path).filter fun name ↦ (fromUtf8 name).isSome with
    | none => return .error (.beforePublication (.custom .invalidInput "invalid snapshot path"))
    | some name =>
      let temporary := parent.join (temporaryName name process suffix)
      match ← publish temporary path snapshot.bytes with
      | .error error => abandon temporary error
      | .ok () => settle temporary parent

namespace Persist

/-! ## Temporary names -/

theorem natText_injective : Function.Injective natText := by
  intro n m h
  have hparse := congrArg parseDigits h
  rw [parseDigits_natText, parseDigits_natText] at hparse
  exact Option.some.inj hparse

theorem toUtf8_injective : Function.Injective toUtf8 := by
  intro text text' h
  have hdecode := congrArg fromUtf8 h
  rw [fromUtf8_toUtf8, fromUtf8_toUtf8] at hdecode
  exact Option.some.inj hdecode

/-- Numbers end at the first character that is not a digit. -/
theorem natText_append_inj {n m : ℕ} {rest rest' : Text}
    (h : natText n ++ '-' :: rest = natText m ++ '-' :: rest') : n = m ∧ rest = rest' := by
  have htake (k : ℕ) (text : Text) : (natText k ++ '-' :: text).takeWhile Char.isDigit = natText k := by
    rw [List.takeWhile_append_of_pos fun c ↦ isDigit_natText, List.takeWhile_cons_of_neg (by decide),
      List.append_nil]
  have hdigits : natText n = natText m := by
    rw [← htake n rest, h, htake]
  rw [hdigits] at h
  exact ⟨natText_injective hdigits, (List.cons.inj (List.append_cancel_left h)).2⟩

/-- Different calls write to different temporary files. -/
theorem temporaryName_inj {name : Bytes} {process process' : U32} {suffix suffix' : U64}
    (h : temporaryName name process suffix = temporaryName name process' suffix') :
    process = process' ∧ suffix = suffix' := by
  have htext := toUtf8_injective (List.append_cancel_left h)
  rw [List.append_assoc, List.append_assoc] at htext
  obtain ⟨hprocess, hsuffix⟩ := natText_append_inj (List.append_cancel_left htext)
  exact ⟨Fin.ext hprocess, Fin.ext (natText_injective hsuffix)⟩

theorem temporaryName_ne (name : Bytes) (process : U32) (suffix : U64) :
    temporaryName name process suffix ≠ name := by
  intro h
  have hlength := congrArg List.length h
  have hdot : (toUtf8 ['.']).length = 1 := by decide
  unfold temporaryName at hlength
  rw [List.length_append, List.length_append, hdot] at hlength
  omega

end Persist

end DeterministicExchange.Recovery
