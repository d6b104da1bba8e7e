import Mathlib.Data.List.Basic
import DeterministicExchange.Storage.Program

/-!
# Files and directories

Files are numbered, and named by entries of directories. What was written to a
file survives a crash once the file is synchronized, and a changed entry once
its directory is. Until then a crash leaves any bytes in the file, and any of
the entries that the name has had since, each name on its own.

Every call may be refused, and a refused write may have stored a part.
-/

namespace DeterministicExchange.Storage

/-- The names on the way to a file, innermost first, from the root or from the working directory. -/
structure Path (Name : Type) where
  rooted : Bool
  names : List Name
  deriving DecidableEq

namespace Path

variable {Name : Type}

def join (path : Path Name) (name : Name) : Path Name := { path with names := name :: path.names }

def parent (path : Path Name) : Option (Path Name) :=
  match path.names with
  | [] => none
  | _ :: names => some { path with names := names }

/-- The empty path stands for the working directory, but cannot be opened. -/
def isEmpty (path : Path Name) : Bool := !path.rooted && path.names.isEmpty

theorem join_ne_self (path : Path Name) (name : Name) : path.join name ≠ path := by
  intro h
  have hlength := congrArg (fun path : Path Name ↦ path.names.length) h
  simp [join] at hlength

theorem join_inj {path : Path Name} {name name' : Name} :
    path.join name = path.join name' ↔ name = name' := by
  simp [join]

theorem exists_join {path parent : Path Name} (h : path.parent = some parent) :
    ∃ name, path = parent.join name := by
  obtain ⟨rooted, names⟩ := path
  cases names with
  | nil => cases h
  | cons name names =>
    obtain rfl := Option.some.inj h
    exact ⟨name, rfl⟩

theorem parent_ne_self {path parent : Path Name} (h : path.parent = some parent) : parent ≠ path := by
  obtain ⟨name, rfl⟩ := exists_join h
  exact (parent.join_ne_self name).symm

theorem parent_ne_join {path parent : Path Name} (h : path.parent = some parent) (name : Name) :
    parent ≠ path.join name := by
  obtain ⟨last, rfl⟩ := exists_join h
  intro heq
  have hlength := congrArg (fun path : Path Name ↦ path.names.length) heq
  simp only [join, List.length_cons] at hlength
  omega

@[simp] theorem parent_join (path : Path Name) (name : Name) : (path.join name).parent = some path := rfl

end Path

inductive ErrorKind where
  | notFound
  | alreadyExists
  | isADirectory
  | permissionDenied
  | invalidInput
  | other
  deriving DecidableEq, Repr

/-- An error of the operating system, or one that a program has made itself. -/
inductive IoError where
  | os (kind : ErrorKind)
  | custom (kind : ErrorKind) (message : String)
  deriving DecidableEq, Repr

inductive Node where
  | directory
  | file (inode : ℕ)
  deriving DecidableEq, Repr

structure File (Byte : Type) where
  bytes : List Byte
  synced : Bool
  deriving DecidableEq

/-- The files, the entry of each name, and the entries that a crash may leave there. -/
structure Disk (Name Byte : Type) where
  files : List (File Byte)
  entries : Path Name → Option Node
  stored : Path Name → List (Option Node)
  entry_mem : ∀ path, entries path ∈ stored path
  inode_lt : ∀ path inode, some (.file inode) ∈ stored path → inode < files.length

inductive Request (Name Byte : Type) where
  | pathExists (path : Path Name)
  | createDir (path : Path Name)
  | createNew (path : Path Name)
  | writeAll (inode : ℕ) (bytes : List Byte)
  | syncAll (inode : ℕ)
  | hardLink (original link : Path Name)
  | removeFile (path : Path Name)
  | syncPath (path : Path Name)
  | read (path : Path Name)

/-- A created file is answered with its number. -/
def Request.Answer {Name Byte : Type} : Request Name Byte → Type
  | pathExists _ => Bool
  | createNew _ => Except IoError ℕ
  | read _ => Except IoError (List Byte)
  | _ => Except IoError Unit

/-- What the environment decides: whether a call is refused, and how much a refused write has stored. -/
structure Outcome where
  refused : Option IoError
  written : ℕ

/-- A call that is not refused. -/
def Outcome.granted : Outcome := ⟨none, 0⟩

namespace Disk

variable {Name Byte : Type}

abbrev interface (Name Byte : Type) : Interface := ⟨Request Name Byte, Request.Answer⟩

def hasDirectory (disk : Disk Name Byte) (path : Path Name) : Bool :=
  path.names.isEmpty || decide (disk.entries path = some .directory)

/-- Whether the directory of a new entry is there. -/
def hasParent (disk : Disk Name Byte) (path : Path Name) : Bool :=
  match path.parent with
  | none => false
  | some parent => disk.hasDirectory parent

/-- The file that a path leads to. -/
def content (disk : Disk Name Byte) (path : Path Name) : Option (File Byte) :=
  match disk.entries path with
  | some (.file inode) => disk.files[inode]?
  | _ => none

/-- A disk without files. -/
def empty : Disk Name Byte where
  files := []
  entries _ := none
  stored _ := [none]
  entry_mem _ := List.mem_singleton.mpr rfl
  inode_lt _ _ h := absurd (List.mem_singleton.mp h) (Option.some_ne_none _)

def setEntry [DecidableEq Name] (disk : Disk Name Byte) (path : Path Name) (node : Option Node)
    (h : ∀ inode, node = some (.file inode) → inode < disk.files.length) : Disk Name Byte where
  files := disk.files
  entries := Function.update disk.entries path node
  stored := Function.update disk.stored path (node :: disk.stored path)
  entry_mem other := by
    by_cases hother : other = path
    · subst hother
      rw [Function.update_self, Function.update_self]
      exact List.mem_cons_self
    · rw [Function.update_of_ne hother, Function.update_of_ne hother]
      exact disk.entry_mem other
  inode_lt other inode hmem := by
    by_cases hother : other = path
    · subst hother
      rw [Function.update_self] at hmem
      rcases List.mem_cons.mp hmem with hnode | hmem
      · exact h inode hnode.symm
      · exact disk.inode_lt other inode hmem
    · rw [Function.update_of_ne hother] at hmem
      exact disk.inode_lt other inode hmem

/-- A new file, without an entry. -/
def grow (disk : Disk Name Byte) : Disk Name Byte :=
  { disk with
    files := disk.files ++ [⟨[], false⟩]
    inode_lt := fun path inode hmem ↦ by
      rw [List.length_append]
      exact Nat.lt_add_right _ (disk.inode_lt path inode hmem) }

def createFile [DecidableEq Name] (disk : Disk Name Byte) (path : Path Name) : Disk Name Byte :=
  disk.grow.setEntry path (some (.file disk.files.length)) (by
    intro inode h
    obtain rfl := Node.file.inj (Option.some.inj h)
    simp [grow])

def modifyFile (disk : Disk Name Byte) (inode : ℕ) (change : File Byte → File Byte) : Disk Name Byte :=
  { disk with
    files := disk.files.modify inode change
    inode_lt := fun path inode hmem ↦ by
      rw [List.length_modify]
      exact disk.inode_lt path inode hmem }

/-- What is written is not synchronized. -/
def append (disk : Disk Name Byte) (inode : ℕ) (bytes : List Byte) : Disk Name Byte :=
  disk.modifyFile inode fun file ↦ ⟨file.bytes ++ bytes, false⟩

def syncFile (disk : Disk Name Byte) (inode : ℕ) : Disk Name Byte :=
  disk.modifyFile inode fun file ↦ ⟨file.bytes, true⟩

def syncDirectory [DecidableEq Name] (disk : Disk Name Byte) (path : Path Name) : Disk Name Byte :=
  { disk with
    stored := fun other ↦ if other.parent = some path then [disk.entries other] else disk.stored other
    entry_mem := fun other ↦ by
      split
      · exact List.mem_singleton.mpr rfl
      · exact disk.entry_mem other
    inode_lt := fun other inode hmem ↦ by
      split at hmem
      · apply disk.inode_lt other inode
        rw [List.mem_singleton.mp hmem]
        exact disk.entry_mem other
      · exact disk.inode_lt other inode hmem }

/-- A second name for the file of the first. -/
def link [DecidableEq Name] (disk : Disk Name Byte) (original path : Path Name) : Disk Name Byte :=
  disk.setEntry path (disk.entries original) fun inode h ↦
    disk.inode_lt original inode (h ▸ disk.entry_mem original)

def remove [DecidableEq Name] (disk : Disk Name Byte) (path : Path Name) : Disk Name Byte :=
  disk.setEntry path none fun _ h ↦ absurd h (by simp)

/-- A call that is not refused. -/
def perform [DecidableEq Name] (disk : Disk Name Byte) :
    (request : Request Name Byte) → request.Answer × Disk Name Byte
  | .pathExists path => ((disk.entries path).isSome, disk)
  | .createDir path =>
    if (disk.entries path).isSome then (.error (.os .alreadyExists), disk)
    else if !disk.hasParent path then (.error (.os .notFound), disk)
    else (.ok (), disk.setEntry path (some .directory) fun _ h ↦ absurd h (by simp))
  | .createNew path =>
    if (disk.entries path).isSome then (.error (.os .alreadyExists), disk)
    else if !disk.hasParent path then (.error (.os .notFound), disk)
    else (.ok disk.files.length, disk.createFile path)
  | .writeAll inode bytes => (.ok (), disk.append inode bytes)
  | .syncAll inode => (.ok (), disk.syncFile inode)
  | .hardLink original path =>
    match disk.entries original with
    | none => (.error (.os .notFound), disk)
    | some .directory => (.error (.os .permissionDenied), disk)
    | some (.file _) =>
      if (disk.entries path).isSome then (.error (.os .alreadyExists), disk)
      else if !disk.hasParent path then (.error (.os .notFound), disk)
      else (.ok (), disk.link original path)
  | .removeFile path =>
    match disk.entries path with
    | none => (.error (.os .notFound), disk)
    | some .directory => (.error (.os .isADirectory), disk)
    | some (.file _) => (.ok (), disk.remove path)
  | .syncPath path =>
    if path.isEmpty then (.error (.os .notFound), disk)
    else if disk.hasDirectory path then (.ok (), disk.syncDirectory path)
    else
      match disk.entries path with
      | some (.file inode) => (.ok (), disk.syncFile inode)
      | _ => (.error (.os .notFound), disk)
  | .read path =>
    match disk.content path with
    | some file => (.ok file.bytes, disk)
    | none => (.error (.os (if (disk.entries path).isSome then .isADirectory else .notFound)), disk)

/-- A refused call. -/
def refuse (disk : Disk Name Byte) (error : IoError) (written : ℕ) :
    (request : Request Name Byte) → request.Answer × Disk Name Byte
  | .pathExists _ => (false, disk)
  | .writeAll inode bytes => (.error error, disk.append inode (bytes.take written))
  | .createDir _ | .createNew _ | .syncAll _ | .hardLink _ _ | .removeFile _ | .syncPath _ | .read _ =>
    (.error error, disk)

def device [DecidableEq Name] :
    Device (interface Name Byte) Outcome (Disk Name Byte) := fun request outcome disk ↦
  match outcome.refused with
  | none => disk.perform request
  | some error => disk.refuse error outcome.written request

/-! ## The calls as programs -/

abbrev FileProgram (Name Byte : Type) : Type → Type := Program (interface Name Byte)

abbrev call (request : Request Name Byte) : FileProgram Name Byte request.Answer := .call request .done

abbrev pathExists (path : Path Name) : FileProgram Name Byte Bool := call (.pathExists path)

abbrev createDir (path : Path Name) : FileProgram Name Byte (Except IoError Unit) :=
  call (.createDir path)

abbrev createNew (path : Path Name) : FileProgram Name Byte (Except IoError ℕ) :=
  call (.createNew path)

abbrev writeAll (inode : ℕ) (bytes : List Byte) : FileProgram Name Byte (Except IoError Unit) :=
  call (.writeAll inode bytes)

abbrev syncAll (inode : ℕ) : FileProgram Name Byte (Except IoError Unit) := call (.syncAll inode)

abbrev hardLink (original path : Path Name) : FileProgram Name Byte (Except IoError Unit) :=
  call (.hardLink original path)

abbrev removeFile (path : Path Name) : FileProgram Name Byte (Except IoError Unit) :=
  call (.removeFile path)

abbrev syncPath (path : Path Name) : FileProgram Name Byte (Except IoError Unit) :=
  call (.syncPath path)

abbrev read (path : Path Name) : FileProgram Name Byte (Except IoError (List Byte)) :=
  call (.read path)

/-- A crash. Synchronized files keep their bytes; below a directory that is lost nothing is left. -/
structure Crash (disk disk' : Disk Name Byte) : Prop where
  count : disk'.files.length = disk.files.length
  files : ∀ (inode : ℕ) (file : File Byte), disk.files[inode]? = some file → file.synced = true →
    disk'.files[inode]? = some file
  kept : ∀ path name, disk'.hasDirectory path = true →
    disk'.entries (path.join name) ∈ disk.stored (path.join name)
  lost : ∀ path name, disk'.hasDirectory path = false → disk'.entries (path.join name) = none
  settled : (∀ file ∈ disk'.files, file.synced = true) ∧ ∀ path, disk'.stored path = [disk'.entries path]

/-! ## What the calls change -/

section Changes

variable (disk : Disk Name Byte) {path other : Path Name} {inode : ℕ}

@[simp] theorem modifyFile_entries (inode : ℕ) (change : File Byte → File Byte) :
    (disk.modifyFile inode change).entries = disk.entries := rfl

@[simp] theorem modifyFile_stored (inode : ℕ) (change : File Byte → File Byte) :
    (disk.modifyFile inode change).stored = disk.stored := rfl

theorem modifyFile_getElem? {file : File Byte} (h : disk.files[inode]? = some file)
    (change : File Byte → File Byte) :
    (disk.modifyFile inode change).files[inode]? = some (change file) := by
  unfold modifyFile
  rw [List.getElem?_modify_eq, h]
  rfl

theorem modifyFile_getElem?_of_ne {inode' : ℕ} (h : inode' ≠ inode) (change : File Byte → File Byte) :
    (disk.modifyFile inode change).files[inode']? = disk.files[inode']? := by
  unfold modifyFile
  dsimp only
  rw [List.getElem?_modify]
  simp [Ne.symm h]

/-- Only the entry of its parent decides whether a path may be created. -/
theorem hasParent_congr {disk disk' : Disk Name Byte} {path : Path Name}
    (h : ∀ parent, path.parent = some parent → disk'.entries parent = disk.entries parent) :
    disk'.hasParent path = disk.hasParent path := by
  unfold hasParent
  cases hparent : path.parent with
  | none => rfl
  | some parent =>
    dsimp only
    unfold hasDirectory
    rw [h parent hparent]

variable [DecidableEq Name]

@[simp] theorem setEntry_files (path : Path Name) (node : Option Node) (h) :
    (disk.setEntry path node h).files = disk.files := rfl

@[simp] theorem setEntry_entries (path : Path Name) (node : Option Node) (h) :
    (disk.setEntry path node h).entries path = node := Function.update_self _ _ _

theorem setEntry_entries_of_ne (hne : other ≠ path) (node : Option Node) (h) :
    (disk.setEntry path node h).entries other = disk.entries other := Function.update_of_ne hne _ _

@[simp] theorem setEntry_stored (path : Path Name) (node : Option Node) (h) :
    (disk.setEntry path node h).stored path = node :: disk.stored path := Function.update_self _ _ _

theorem setEntry_stored_of_ne (hne : other ≠ path) (node : Option Node) (h) :
    (disk.setEntry path node h).stored other = disk.stored other := Function.update_of_ne hne _ _

@[simp] theorem createFile_files (path : Path Name) :
    (disk.createFile path).files = disk.files ++ [⟨[], false⟩] := rfl

@[simp] theorem createFile_entries (path : Path Name) :
    (disk.createFile path).entries path = some (.file disk.files.length) := setEntry_entries _ _ _ _

theorem createFile_entries_of_ne (hne : other ≠ path) :
    (disk.createFile path).entries other = disk.entries other := setEntry_entries_of_ne _ hne _ _

@[simp] theorem createFile_stored (path : Path Name) :
    (disk.createFile path).stored path = some (.file disk.files.length) :: disk.stored path :=
  setEntry_stored _ _ _ _

theorem createFile_stored_of_ne (hne : other ≠ path) :
    (disk.createFile path).stored other = disk.stored other := setEntry_stored_of_ne _ hne _ _

theorem createFile_getElem? (path : Path Name) (h : inode < disk.files.length) :
    (disk.createFile path).files[inode]? = disk.files[inode]? := List.getElem?_append_left h

@[simp] theorem link_entries (original path : Path Name) :
    (disk.link original path).entries path = disk.entries original := setEntry_entries _ _ _ _

theorem link_entries_of_ne (hne : other ≠ path) (original : Path Name) :
    (disk.link original path).entries other = disk.entries other := setEntry_entries_of_ne _ hne _ _

@[simp] theorem link_stored (original path : Path Name) :
    (disk.link original path).stored path = disk.entries original :: disk.stored path :=
      setEntry_stored _ _ _ _

@[simp] theorem syncDirectory_files (path : Path Name) : (disk.syncDirectory path).files = disk.files := rfl

@[simp] theorem syncDirectory_entries (path : Path Name) :
    (disk.syncDirectory path).entries = disk.entries := rfl

@[simp] theorem syncDirectory_stored_join (path : Path Name) (name : Name) :
    (disk.syncDirectory path).stored (path.join name) = [disk.entries (path.join name)] := if_pos rfl

end Changes

/-! ## What a call can do -/

section Calls

variable [DecidableEq Name] (disk : Disk Name Byte) (path : Path Name) (outcome : Outcome)

theorem device_createDir :
    (∃ error, device (.createDir path) outcome disk = (.error error, disk)) ∨
      disk.entries path = none ∧ disk.hasParent path = true ∧
        ∃ h, device (.createDir path) outcome disk = (.ok (), disk.setEntry path (some .directory) h) := by
  unfold device
  cases outcome.refused with
  | some error => exact .inl ⟨error, rfl⟩
  | none =>
    dsimp only [perform]
    by_cases hentry : (disk.entries path).isSome = true
    · rw [if_pos hentry]
      exact .inl ⟨_, rfl⟩
    by_cases hparent : disk.hasParent path = true
    · rw [if_neg hentry, hparent]
      exact .inr ⟨by simpa using hentry, rfl, _, rfl⟩
    · rw [if_neg hentry, if_pos (by simpa using hparent)]
      exact .inl ⟨_, rfl⟩

theorem device_createNew :
    (∃ error, device (.createNew path) outcome disk = (.error error, disk)) ∨
      disk.entries path = none ∧
        device (.createNew path) outcome disk = (.ok disk.files.length, disk.createFile path) := by
  unfold device
  cases outcome.refused with
  | some error => exact .inl ⟨error, rfl⟩
  | none =>
    dsimp only [perform]
    by_cases hentry : (disk.entries path).isSome = true
    · rw [if_pos hentry]
      exact .inl ⟨_, rfl⟩
    by_cases hparent : disk.hasParent path = true
    · rw [if_neg hentry, hparent]
      exact .inr ⟨by simpa using hentry, rfl⟩
    · rw [if_neg hentry, if_pos (by simpa using hparent)]
      exact .inl ⟨_, rfl⟩

/-- A refused write may have stored a part. -/
theorem device_writeAll (inode : ℕ) (bytes : List Byte) :
    (∃ error written, device (.writeAll inode bytes) outcome disk =
      (.error error, disk.append inode written)) ∨
      device (.writeAll inode bytes) outcome disk = (.ok (), disk.append inode bytes) := by
  unfold device
  cases outcome.refused with
  | some error => exact .inl ⟨error, _, rfl⟩
  | none => exact .inr rfl

theorem device_syncAll (inode : ℕ) :
    (∃ error, device (.syncAll inode) outcome disk = (.error error, disk)) ∨
      device (.syncAll inode) outcome disk = (.ok (), disk.syncFile inode) := by
  unfold device
  cases outcome.refused with
  | some error => exact .inl ⟨error, rfl⟩
  | none => exact .inr rfl

theorem device_syncPath (h : disk.hasDirectory path = true) :
    (∃ error, device (.syncPath path) outcome disk = (.error error, disk)) ∨
      path.isEmpty = false ∧ device (.syncPath path) outcome disk = (.ok (), disk.syncDirectory path) := by
  unfold device
  cases outcome.refused with
  | some error => exact .inl ⟨error, rfl⟩
  | none =>
    dsimp only [perform]
    by_cases hempty : path.isEmpty = true
    · rw [if_pos hempty]
      exact .inl ⟨_, rfl⟩
    · rw [if_neg hempty, if_pos h]
      exact .inr ⟨by simpa using hempty, rfl⟩

theorem device_pathExists :
    (device (.pathExists path) outcome disk).2 = disk := by
  unfold device
  cases outcome.refused <;> rfl

theorem device_hardLink (original : Path Name) :
    (∃ error, device (.hardLink original path) outcome disk = (.error error, disk)) ∨
      (∃ inode, disk.entries original = some (.file inode)) ∧ disk.entries path = none ∧
        disk.hasParent path = true ∧
        device (.hardLink original path) outcome disk = (.ok (), disk.link original path) := by
  unfold device
  cases outcome.refused with
  | some error => exact .inl ⟨error, rfl⟩
  | none =>
    dsimp only [perform]
    split
    · exact .inl ⟨_, rfl⟩
    · exact .inl ⟨_, rfl⟩
    next inode horiginal =>
    by_cases hentry : (disk.entries path).isSome = true
    · rw [if_pos hentry]
      exact .inl ⟨_, rfl⟩
    by_cases hparent : disk.hasParent path = true
    · rw [if_neg hentry, hparent]
      exact .inr ⟨⟨inode, horiginal⟩, by simpa using hentry, rfl, rfl⟩
    · rw [if_neg hentry, if_pos (by simpa using hparent)]
      exact .inl ⟨_, rfl⟩

theorem device_removeFile :
    (∃ error, device (.removeFile path) outcome disk = (.error error, disk)) ∨
      device (.removeFile path) outcome disk = (.ok (), disk.remove path) := by
  unfold device
  cases outcome.refused with
  | some error => exact .inl ⟨error, rfl⟩
  | none =>
    dsimp only [perform]
    split
    · exact .inl ⟨_, rfl⟩
    · exact .inl ⟨_, rfl⟩
    · exact .inr rfl

theorem device_read_granted {file : File Byte} (h : disk.content path = some file) :
    device (.read path) .granted disk = (.ok file.bytes, disk) := by
  unfold device
  dsimp only [Outcome.granted, perform]
  rw [h]

theorem device_read :
    (∃ error, device (.read path) outcome disk = (.error error, disk)) ∨
      ∃ file, disk.content path = some file ∧ device (.read path) outcome disk = (.ok file.bytes, disk) := by
  unfold device
  cases outcome.refused with
  | some error => exact .inl ⟨error, rfl⟩
  | none =>
    dsimp only [perform]
    cases hcontent : disk.content path with
    | none => exact .inl ⟨_, rfl⟩
    | some file => exact .inr ⟨file, rfl, rfl⟩

end Calls

/-! ## One path aside -/

/-- Nothing has changed but the entry of one path, and new files. -/
structure Beside (path : Path Name) (disk disk' : Disk Name Byte) : Prop where
  entries : ∀ other, other ≠ path → disk'.entries other = disk.entries other
  stored : ∀ other, other ≠ path → disk'.stored other = disk.stored other
  files : ∀ inode < disk.files.length, disk'.files[inode]? = disk.files[inode]?

namespace Beside

variable {disk disk' : Disk Name Byte} {path : Path Name}

theorem refl (path : Path Name) (disk : Disk Name Byte) : Beside path disk disk :=
  ⟨fun _ _ ↦ rfl, fun _ _ ↦ rfl, fun _ _ ↦ rfl⟩

theorem length_le (h : Beside path disk disk') : disk.files.length ≤ disk'.files.length := by
  by_contra hlt
  have hsame := h.files disk'.files.length (by omega)
  rw [List.getElem?_eq_none (Nat.le_refl _)] at hsame
  exact absurd (List.getElem?_eq_none_iff.mp hsame.symm) (by omega)

theorem createFile [DecidableEq Name] (h : Beside path disk disk') :
    Beside path disk (disk'.createFile path) := by
  refine ⟨fun other hne ↦ ?_, fun other hne ↦ ?_, fun inode hlt ↦ ?_⟩
  · rw [createFile_entries_of_ne _ hne, h.entries other hne]
  · rw [createFile_stored_of_ne _ hne, h.stored other hne]
  · rw [createFile_getElem? _ _ (Nat.lt_of_lt_of_le hlt h.length_le), h.files inode hlt]

theorem modifyFile (h : Beside path disk disk') {inode : ℕ} (hnew : disk.files.length ≤ inode)
    (change : File Byte → File Byte) : Beside path disk (disk'.modifyFile inode change) := by
  refine ⟨h.entries, h.stored, fun other hlt ↦ ?_⟩
  rw [modifyFile_getElem?_of_ne _ (by omega), h.files other hlt]

theorem remove [DecidableEq Name] (path : Path Name) (disk : Disk Name Byte) :
    Beside path disk (disk.remove path) :=
  ⟨fun _ hne ↦ setEntry_entries_of_ne _ hne _ _, fun _ hne ↦ setEntry_stored_of_ne _ hne _ _, fun _ _ ↦ rfl⟩

theorem hasDirectory (h : Beside path disk disk') {other : Path Name} (hne : other ≠ path) :
    disk'.hasDirectory other = disk.hasDirectory other := by
  unfold Disk.hasDirectory
  rw [h.entries other hne]

end Beside

/-- A path that leads to one file, which its entry may not have done before. -/
structure Holds (disk : Disk Name Byte) (path : Path Name) (inode : ℕ) (file : File Byte) : Prop where
  entry : disk.entries path = some (.file inode)
  stored : disk.stored path = [some (.file inode), none]
  file : disk.files[inode]? = some file

namespace Holds

variable {disk disk' : Disk Name Byte} {path other : Path Name} {inode : ℕ} {file : File Byte}

theorem createFile [DecidableEq Name] (h : disk.stored path = [none]) :
    Holds (disk.createFile path) path disk.files.length ⟨[], false⟩ := by
  refine ⟨createFile_entries _ _, ?_, ?_⟩
  · rw [createFile_stored, h]
  · rw [createFile_files, List.getElem?_concat_length]

theorem modifyFile (h : Holds disk path inode file) (change : File Byte → File Byte) :
    Holds (disk.modifyFile inode change) path inode (change file) :=
  ⟨h.entry, h.stored, modifyFile_getElem? disk h.file change⟩

theorem beside (h : Holds disk path inode file) (hbeside : Beside other disk disk') (hne : path ≠ other) :
    Holds disk' path inode file := by
  refine ⟨?_, ?_, ?_⟩
  · rw [hbeside.entries path hne, h.entry]
  · rw [hbeside.stored path hne, h.stored]
  · rw [hbeside.files inode (List.getElem?_eq_some_iff.mp h.file).1, h.file]

end Holds

/-! ## What survives -/

/-- After a crash the path still leads to these bytes, if its directory is still there. -/
def Durable (disk : Disk Name Byte) (path : Path Name) (bytes : List Byte) : Prop :=
  ∃ inode, disk.stored path = [some (.file inode)] ∧ disk.files[inode]? = some ⟨bytes, true⟩

namespace Durable

variable {disk disk' : Disk Name Byte} {path other directory : Path Name} {name : Name} {bytes : List Byte}

theorem content (h : Durable disk path bytes) : disk.content path = some ⟨bytes, true⟩ := by
  obtain ⟨inode, hstored, hfile⟩ := h
  have hentry : disk.entries path = some (.file inode) :=
    List.mem_singleton.mp (hstored ▸ disk.entry_mem path)
  unfold Disk.content
  rw [hentry]
  exact hfile

/-- What may not be there after a crash is not durable. -/
theorem none_notMem (h : Durable disk path bytes) : none ∉ disk.stored path := by
  obtain ⟨inode, hstored, _⟩ := h
  rw [hstored]
  simp

theorem beside (h : Durable disk path bytes) (hbeside : Beside other disk disk') (hne : path ≠ other) :
    Durable disk' path bytes := by
  obtain ⟨inode, hstored, hfile⟩ := h
  refine ⟨inode, ?_, ?_⟩
  · rw [hbeside.stored path hne, hstored]
  · rw [hbeside.files inode (List.getElem?_eq_some_iff.mp hfile).1, hfile]

theorem syncDirectory [DecidableEq Name] (h : Durable disk path bytes) (directory : Path Name) :
    Durable (disk.syncDirectory directory) path bytes := by
  obtain ⟨inode, hstored, hfile⟩ := h
  have hentry : disk.entries path = some (.file inode) :=
    List.mem_singleton.mp (hstored ▸ disk.entry_mem path)
  refine ⟨inode, ?_, hfile⟩
  unfold Disk.syncDirectory
  dsimp only
  split
  · rw [hentry]
  · exact hstored

/-- A synchronized file in a synchronized directory. -/
theorem of_holds [DecidableEq Name] {inode : ℕ} (h : Holds disk (directory.join name) inode ⟨bytes, true⟩) :
    Durable (disk.syncDirectory directory) (directory.join name) bytes := by
  refine ⟨inode, ?_, h.file⟩
  rw [syncDirectory_stored_join, h.entry]

theorem crash (h : Durable disk (directory.join name) bytes) (hcrash : Crash disk disk')
    (hdirectory : disk'.hasDirectory directory = true) : Durable disk' (directory.join name) bytes := by
  obtain ⟨inode, hstored, hfile⟩ := h
  have hentry := hcrash.kept directory name hdirectory
  rw [hstored, List.mem_singleton] at hentry
  refine ⟨inode, ?_, hcrash.files inode _ hfile rfl⟩
  rw [hcrash.settled.2, hentry]

end Durable

/-- Nothing is at a path or right below it, nor can be after a crash. -/
structure Vacant (disk : Disk Name Byte) (path : Path Name) : Prop where
  absent : disk.stored path = [none]
  below : ∀ name, disk.stored (path.join name) = [none]

end Disk

end DeterministicExchange.Storage
