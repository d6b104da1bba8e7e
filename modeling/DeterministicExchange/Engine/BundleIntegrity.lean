import DeterministicExchange.Engine.Publication

/-!
# What a reader accepts

A bundle is read exactly where its four files are stored. The marker binds the
files: whatever has happened to them, a reader that finds the marker of a published
bundle returns that bundle, unless two byte strings with the same digest are known.
-/

namespace DeterministicExchange.RecoveryBundle

open Machine Codec Recovery Storage

variable {sha256 : Bytes → Digest} {destination : Storage.Path Bytes} {disk : BundleDisk}

/-! ## Reading -/

/-- The device of a reader alone. -/
def Alone (promise : Except BundleError RecoveryBundle → Prop) (program : BundleProgram RecoveryBundle)
    (disk : BundleDisk) : Prop :=
  Outline Disk.device (fun _ _ ↦ False) (fun disk disk' ↦ disk' = disk)
    (fun result _ ↦ promise result) program disk

variable {promise : Except BundleError RecoveryBundle → Prop}

theorem alone_throw {error : BundleError} (h : promise (.error error)) :
    Alone promise (throw error) disk := fun _ _ ↦ h

theorem alone_pure {bundle : RecoveryBundle} (h : promise (.ok bundle)) :
    Alone promise (pure bundle) disk := fun _ _ ↦ h

theorem alone_read {path : Storage.Path Bytes} {f : Bytes → BundleProgram RecoveryBundle}
    (hfailed : ∀ error, promise (.error error))
    (hafter : ∀ bytes, (disk.content path).map File.bytes = some bytes → Alone promise (f bytes) disk) :
    Alone promise (BundleError.call (Disk.read path) >>= f) disk := by
  apply Outline.bindExcept fun result disk' ↦ disk' = disk ∧
    ∀ bytes, result = .ok bytes → (disk.content path).map File.bytes = some bytes
  · apply outline_call (· = disk) (stable_alone _) fun _ ↦ stable_alone _
    · rintro _ outcome rfl
      rcases Disk.device_read _ path outcome with ⟨error, hcall⟩ | ⟨file, hcontent, hcall⟩
      · rw [hcall]
        exact ⟨rfl, rfl, fun bytes hbytes ↦ by cases hbytes⟩
      · rw [hcall]
        refine ⟨rfl, rfl, fun bytes hbytes ↦ ?_⟩
        rw [hcontent, ← Except.ok.inj hbytes, Option.map_some]
    · rfl
  · exact fun _ ↦ stable_alone _
  · exact fun error _ _ ↦ hfailed error
  · rintro bytes _ ⟨rfl, hbytes⟩
    exact hafter bytes (hbytes bytes rfl)

/-- What a reader returns is valid and stored. -/
theorem alone_readBack (sha256 : Bytes → Digest) (destination : Storage.Path Bytes) (disk : BundleDisk) :
    Alone (fun result ↦ ∀ bundle, result = .ok bundle → bundle.configuration.Addressable ∧
      bundle.configuration.validate = .ok () ∧ Stored sha256 bundle destination disk)
      (read sha256 destination) disk := by
  have herror (error : BundleError) (bundle : RecoveryBundle)
      (h : (.error error : Except BundleError RecoveryBundle) = .ok bundle) :
      bundle.configuration.Addressable ∧ bundle.configuration.validate = .ok () ∧
        Stored sha256 bundle destination disk := by cases h
  unfold read
  apply alone_read herror
  intro marker hmarker
  split
  · exact alone_throw (herror _)
  unfold readFiles
  apply alone_read herror
  intro encoded hencoded
  cases hdecode : EngineConfig.decode encoded with
  | error error => exact alone_throw (herror _)
  | ok configuration =>
    obtain ⟨haddressable, hvalid, hencode⟩ := EngineConfig.decode_eq_ok hdecode
    apply alone_read herror
    intro snapshot hsnapshot
    apply alone_read herror
    intro tail htail
    dsimp only
    split
    · exact alone_throw (herror _)
    next hsame =>
    apply alone_pure
    rintro bundle ⟨⟩
    refine ⟨haddressable, hvalid, ⟨?_, ?_, hsnapshot, htail⟩⟩
    · rw [hmarker, not_not.mp hsame]
    · rw [hencoded, hencode]

/-- A reader can return exactly the valid bundles that are stored. -/
theorem readBack_iff (sha256 : Bytes → Digest) (destination : Storage.Path Bytes) (disk : BundleDisk)
    (bundle : RecoveryBundle) :
    (∃ outcomes, readBack sha256 destination disk outcomes = some (.ok bundle)) ↔
      bundle.configuration.Addressable ∧ bundle.configuration.validate = .ok () ∧
        Stored sha256 bundle destination disk := by
  constructor
  · rintro ⟨outcomes, hread⟩
    have hafter := (Outline.run (fun _ ↦ True) (fun _ _ _ _ ↦ trivial)
      (alone_readBack sha256 destination disk) trivial outcomes).1
    unfold readBack at hread
    rw [Program.result?_eq_some.mp hread] at hafter
    exact hafter.promised bundle rfl
  · rintro ⟨haddressable, hvalid, hstored⟩
    exact ⟨_, hstored.readBack haddressable hvalid⟩

/-! ## What the marker binds -/

theorem framed_append_inj {bytes bytes' rest rest' : Bytes} (hlt : bytes.length < 256 ^ 16)
    (hlt' : bytes'.length < 256 ^ 16) (h : framed bytes ++ rest = framed bytes' ++ rest') :
    bytes = bytes' ∧ rest = rest' := by
  unfold framed at h
  rw [List.append_assoc, List.append_assoc] at h
  obtain ⟨hlength, hafter⟩ := List.append_inj h (by rw [length_beBytes, length_beBytes])
  have hvalue := congrArg beValue hlength
  rw [beValue_beBytes, beValue_beBytes, Nat.mod_eq_of_lt hlt, Nat.mod_eq_of_lt hlt'] at hvalue
  exact List.append_inj hafter hvalue

/-- Lengths that fit the sixteen bytes before each file. -/
structure Framed (bundle : RecoveryBundle) : Prop where
  configuration : bundle.configuration.encode.length < 256 ^ 16
  snapshot : bundle.snapshot.length < 256 ^ 16
  tail : bundle.tail.length < 256 ^ 16

/-- Different bundles are digested as different strings. -/
theorem hashed_inj {bundle bundle' : RecoveryBundle} (hframed : bundle.Framed) (hframed' : bundle'.Framed)
    (haddressable : bundle.configuration.Addressable) (haddressable' : bundle'.configuration.Addressable)
    (hvalid : bundle.configuration.validate = .ok ()) (hvalid' : bundle'.configuration.validate = .ok ())
    (h : bundle.hashed = bundle'.hashed) : bundle = bundle' := by
  unfold hashed at h
  rw [List.append_assoc, List.append_assoc, List.append_assoc, List.append_assoc] at h
  have hfiles := List.append_cancel_left h
  obtain ⟨hconfiguration, hrest⟩ := framed_append_inj hframed.configuration hframed'.configuration hfiles
  obtain ⟨hsnapshot, hlast⟩ := framed_append_inj hframed.snapshot hframed'.snapshot hrest
  have hlast' : framed bundle.tail ++ [] = framed bundle'.tail ++ [] := by rw [hlast]
  obtain ⟨htail, _⟩ := framed_append_inj hframed.tail hframed'.tail hlast'
  cases bundle
  cases bundle'
  congr 1
  exact EngineConfig.encode_injective haddressable haddressable' hvalid hvalid' hconfiguration

/-- Under the marker of a published bundle nothing else is read, whatever has become of its files, unless
the digest of something else is the same. -/
theorem read_intact (sha256 : Bytes → Digest) {published : RecoveryBundle}
    (haddressable : published.configuration.Addressable) (hvalid : published.configuration.validate = .ok ())
    (hframed : published.Framed) {destination : Storage.Path Bytes} {disk : BundleDisk}
    (hmarker : (disk.content (destination.join committedName)).map File.bytes =
      some (published.marker sha256))
    (hfiles : ∀ path file, disk.content path = some file → file.bytes.length < 256 ^ 16)
    {outcomes : List Outcome} {bundle : RecoveryBundle}
    (hread : readBack sha256 destination disk outcomes = some (.ok bundle)) :
    bundle = published ∨
      bundle.hashed ≠ published.hashed ∧ sha256 bundle.hashed = sha256 published.hashed := by
  obtain ⟨haddressable', hvalid', hstored⟩ :=
    (readBack_iff sha256 destination disk bundle).mp ⟨outcomes, hread⟩
  have hlength {path : Storage.Path Bytes} {bytes : Bytes}
      (h : (disk.content path).map File.bytes = some bytes) : bytes.length < 256 ^ 16 := by
    obtain ⟨file, hcontent, rfl⟩ := Option.map_eq_some_iff.mp h
    exact hfiles path file hcontent
  have hframed' : bundle.Framed :=
    ⟨hlength hstored.configuration, hlength hstored.snapshot, hlength hstored.tail⟩
  have hdigest : sha256 bundle.hashed = sha256 published.hashed := by
    have hsame := hstored.committed.symm.trans hmarker
    exact Subtype.ext (List.append_cancel_left (Option.some.inj hsame))
  by_cases hhashed : bundle.hashed = published.hashed
  · exact .inl (hashed_inj hframed' hframed haddressable' haddressable hvalid' hvalid hhashed)
  · exact .inr ⟨hhashed, hdigest⟩

/-! ## The bundle of the first publisher -/

def sampleDisk : BundleDisk :=
  ((race EngineConfig.sampleDigest sampleBundles samplePath Disk.empty).run (fun _ ↦ Disk.device)
    sampleActions).state

set_option maxRecDepth 10000 in
theorem sampleDisk_marker :
    (sampleDisk.content (samplePath.join committedName)).map File.bytes =
      some ((sampleBundles false).marker EngineConfig.sampleDigest) := by
  decide

set_option maxRecDepth 10000 in
theorem sampleDisk_files : ∀ file ∈ sampleDisk.files, file.bytes.length < 256 ^ 16 := by
  decide

set_option maxRecDepth 10000 in
theorem sampleDisk_read :
    readBack EngineConfig.sampleDigest samplePath sampleDisk (List.replicate 4 .granted) =
      some (.ok (sampleBundles false)) := by
  decide

theorem read_intact_sample :
    sampleBundles false = sampleBundles false ∨ (sampleBundles false).hashed ≠ (sampleBundles false).hashed ∧
      EngineConfig.sampleDigest (sampleBundles false).hashed =
        EngineConfig.sampleDigest (sampleBundles false).hashed := by
  have hfiles (path : Storage.Path Bytes) (file : File U8) (h : sampleDisk.content path = some file) :
      file.bytes.length < 256 ^ 16 := by
    unfold Disk.content at h
    split at h
    · exact sampleDisk_files file (List.mem_of_getElem? h)
    · cases h
  exact read_intact EngineConfig.sampleDigest sampleConfig_addressable (by decide)
    ⟨by decide, by decide, by decide⟩ sampleDisk_marker hfiles sampleDisk_read

end DeterministicExchange.RecoveryBundle
