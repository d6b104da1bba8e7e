import DeterministicExchange.Recovery.Persist

/-!
# Writers and readers of one snapshot

Writers never touch the temporary files of each other, nor what is at the
destination. So the destination holds nothing, or the whole snapshot of the writer
whose link came first, in any interleaving and after a crash.
-/

namespace DeterministicExchange.Recovery.Persist

open Machine Codec Storage

variable {ι κ : Type}

def Result : Party ι κ → Type
  | .publisher _ => Except SnapshotPersistError Unit
  | .reader _ => Except IoError Bytes

abbrev SnapshotDisk : Type := Disk Bytes U8

/-- A snapshot of a writer, with the numbers that name its temporary file. -/
structure Writer where
  process : U32
  suffix : U64
  snapshot : Snapshot

def race (writers : ι → Writer) (path : Storage.Path Bytes) (disk : SnapshotDisk) :
    Race (Party ι κ) (Disk.interface Bytes U8) Result SnapshotDisk where
  programs
    | .publisher i => persistSnapshotNew (writers i).process (writers i).suffix path (writers i).snapshot
    | .reader _ => Disk.read path
  state := disk

/-- The temporary file of a writer. -/
def Writer.temporary (writer : Writer) (path : Storage.Path Bytes) : Storage.Path Bytes :=
  (path.parent.getD ⟨false, [toUtf8 ['.']]⟩).join
    (temporaryName (path.names.head?.getD []) writer.process writer.suffix)

/-- The disk, and the party that has linked the destination. -/
abbrev Contest (ι κ : Type) : Type := SnapshotDisk × Option (Party ι κ)

section Rules

variable (writers : ι → Writer) (path : Storage.Path Bytes)

/-- What is at the destination is whole, and the file of the winner. -/
structure Held (contest : Contest ι κ) (i : ι) (inode : ℕ) : Prop where
  winner : contest.2 = some (.publisher i)
  entry : contest.1.entries path = some (.file inode)
  stored : ∀ node ∈ contest.1.stored path, node = none ∨ node = some (.file inode)
  file : contest.1.files[inode]? = some ⟨(writers i).snapshot.bytes, true⟩
  parent : contest.1.hasParent path = true

structure Invariant (contest : Contest ι κ) : Prop where
  vacant : contest.2 = none → contest.1.stored path = [none]
  held : ∀ party, contest.2 = some party → ∃ i inode, party = .publisher i ∧ Held writers path contest i inode

/-- A file that has one name only keeps its bytes and gets no other name. -/
structure Spares (temporary : Storage.Path Bytes) (disk disk' : SnapshotDisk) : Prop where
  entry : disk'.entries temporary = disk.entries temporary
  file : ∀ inode, disk.entries temporary = some (.file inode) →
    (∀ other, other ≠ temporary → disk.entries other ≠ some (.file inode)) →
    disk'.files[inode]? = disk.files[inode]? ∧
      ∀ other, other ≠ temporary → disk'.entries other ≠ some (.file inode)

/-- The winner stays, with its entry. -/
structure Respects (contest contest' : Contest ι κ) : Prop where
  winner : ∀ party, contest.2 = some party → contest'.2 = some party
  entry : contest.2 ≠ none → contest'.1.entries path = contest.1.entries path
  durable : contest.2 ≠ none → contest.1.stored path = [contest.1.entries path] →
    contest'.1.stored path = [contest'.1.entries path]

structure Guarantee (party : Party ι κ) (contest contest' : Contest ι κ) : Prop where
  kept : Invariant writers path contest → Invariant writers path contest'
  respects : Respects path contest contest'
  fair : ∀ other, other ≠ party → contest'.2 = some other → contest.2 = some other
  spares : ∀ i, .publisher i ≠ party → Spares ((writers i).temporary path) contest.1 contest'.1

def rely (party : Party ι κ) (contest contest' : Contest ι κ) : Prop :=
  ∃ other, other ≠ party ∧ Guarantee writers path other contest contest'

end Rules

/-- The disk with a record of the party that has linked the destination. -/
def contested (path : Storage.Path Bytes) :
    Party ι κ → Device (Disk.interface Bytes U8) Outcome (Contest ι κ) :=
  Race.credited (fun disk ↦ (disk.entries path).isSome) Disk.device

variable {writers : ι → Writer} {path : Storage.Path Bytes} {party : Party ι κ} {i : ι}

/-! ## What the others leave alone -/

theorem stable_invariant : Stable (rely writers path party) (Invariant writers path) := by
  rintro contest contest' h ⟨other, _, hstep⟩
  exact hstep.kept h

/-- A party that has not linked the destination. -/
structure Waiting (writers : ι → Writer) (path : Storage.Path Bytes) (party : Party ι κ)
    (contest : Contest ι κ) : Prop where
  kept : Invariant writers path contest
  waiting : contest.2 ≠ some party

theorem stable_waiting : Stable (rely writers path party) (Waiting writers path party) := by
  rintro contest contest' h ⟨other, hne, hstep⟩
  exact ⟨hstep.kept h.kept, fun hwon ↦ h.waiting (hstep.fair party hne.symm hwon)⟩

/-- The party that has linked the destination. -/
structure Won (writers : ι → Writer) (path : Storage.Path Bytes) (party : Party ι κ)
    (contest : Contest ι κ) : Prop where
  kept : Invariant writers path contest
  won : contest.2 = some party

theorem stable_won : Stable (rely writers path party) (Won writers path party) := by
  rintro contest contest' h ⟨other, _, hstep⟩
  exact ⟨hstep.kept h.kept, hstep.respects.winner party h.won⟩

/-- A temporary file that its writer alone has a name for. -/
structure Owns (writers : ι → Writer) (path : Storage.Path Bytes) (κ : Type) (i : ι) (inode : ℕ)
    (file : File U8)
    (contest : Contest ι κ) : Prop where
  waiting : Waiting writers path (.publisher i) contest
  entry : contest.1.entries ((writers i).temporary path) = some (.file inode)
  only : ∀ other, other ≠ (writers i).temporary path → contest.1.entries other ≠ some (.file inode)
  file : contest.1.files[inode]? = some file

theorem stable_owns {inode : ℕ} {file : File U8} :
    Stable (rely writers path (.publisher i)) (Owns writers path κ i inode file) := by
  rintro contest contest' h ⟨other, hne, hstep⟩
  have hspares := hstep.spares i hne.symm
  obtain ⟨hfile, honly⟩ := hspares.file inode h.entry h.only
  refine ⟨stable_waiting h.waiting ⟨other, hne, hstep⟩, ?_, honly, ?_⟩
  · rw [hspares.entry, h.entry]
  · rw [hfile, h.file]

/-! ## What a step may change -/

theorem Spares.refl (temporary : Storage.Path Bytes) (disk : SnapshotDisk) : Spares temporary disk disk :=
  ⟨rfl, fun _ _ honly ↦ ⟨rfl, honly⟩⟩

theorem Guarantee.refl (contest : Contest ι κ) : Guarantee writers path party contest contest :=
  ⟨id, ⟨fun _ ↦ id, fun _ ↦ rfl, fun _ ↦ id⟩, fun _ _ ↦ id, fun _ _ ↦ .refl _ _⟩

/-- The temporary files of different writers. -/
def Apart (writers : ι → Writer) : Prop :=
  ∀ i j, (writers i).process = (writers j).process → (writers i).suffix = (writers j).suffix → i = j

theorem Apart.temporary_ne (h : Apart writers) {i j : ι} (hne : i ≠ j) (path : Storage.Path Bytes) :
    (writers i).temporary path ≠ (writers j).temporary path := by
  intro heq
  obtain ⟨hprocess, hsuffix⟩ := temporaryName_inj (Path.join_inj.mp heq)
  exact hne (h i j hprocess hsuffix)

theorem Writer.temporary_ne (writer : Writer) (path : Storage.Path Bytes) : writer.temporary path ≠ path := by
  unfold Writer.temporary
  obtain ⟨rooted, names⟩ := path
  cases names with
  | nil => simp [Storage.Path.parent, Storage.Path.join]
  | cons name names =>
    intro heq
    have hnames := congrArg Storage.Path.names heq
    exact temporaryName_ne name writer.process writer.suffix (List.cons.inj hnames).1

theorem Writer.parent_ne_temporary (writer : Writer) {path parent : Storage.Path Bytes}
    (h : path.parent = some parent) : parent ≠ writer.temporary path := by
  unfold Writer.temporary
  rw [h, Option.getD_some]
  exact (Path.join_ne_self _ _).symm

/-- A step beside the temporary file, whose new file is new. -/
theorem guarantee_beside (hapart : Apart writers) {disk disk' : SnapshotDisk} {winner : Option (Party ι κ)}
    (hbeside : disk.Beside ((writers i).temporary path) disk')
    (hnew : ∀ inode < disk.files.length,
      disk'.entries ((writers i).temporary path) ≠ some (.file inode)) :
    Guarantee writers path (.publisher i) (disk, winner) (disk', winner) := by
  have hpath : path ≠ (writers i).temporary path := ((writers i).temporary_ne path).symm
  have hentry := hbeside.entries path hpath
  have hstored := hbeside.stored path hpath
  refine ⟨fun h ↦ ⟨fun hnone ↦ ?_, fun party hparty ↦ ?_⟩, ⟨fun _ ↦ id, fun _ ↦ hentry, fun _ hdurable ↦ ?_⟩,
    fun _ _ ↦ id, fun j hj ↦ ⟨?_, fun inode hinode honly ↦ ?_⟩⟩
  · rw [hstored]
    exact h.vacant hnone
  · obtain ⟨j, inode, rfl, hheld⟩ := h.held party hparty
    refine ⟨j, inode, rfl, hheld.winner, hentry.trans hheld.entry, fun node hnode ↦ ?_, ?_, ?_⟩
    · exact hheld.stored node (hstored ▸ hnode)
    · rw [hbeside.files inode (List.getElem?_eq_some_iff.mp hheld.file).1]
      exact hheld.file
    · rw [Disk.hasParent_congr fun parent hparent ↦
      hbeside.entries parent ((writers i).parent_ne_temporary hparent)]
      exact hheld.parent
  · rw [hstored, hentry]
    exact hdurable
  · exact hbeside.entries _ (hapart.temporary_ne (fun heq ↦ hj (congrArg Party.publisher heq)) path)
  · have hlt : inode < disk.files.length := disk.inode_lt _ inode (hinode ▸ disk.entry_mem _)
    refine ⟨hbeside.files inode hlt, fun other hother ↦ ?_⟩
    by_cases hmine : other = (writers i).temporary path
    · rw [hmine]
      exact hnew inode hlt
    · rw [hbeside.entries other hmine]
      exact honly other hother

/-- A step inside the temporary file. -/
theorem guarantee_modify (hapart : Apart writers) {inode : ℕ} {file : File U8} {contest : Contest ι κ}
    (h : Owns writers path κ i inode file contest) (change : File U8 → File U8) :
    Guarantee writers path (.publisher i) contest (contest.1.modifyFile inode change, contest.2) := by
  refine ⟨fun hkept ↦ ⟨hkept.vacant, fun party hparty ↦ ?_⟩, ⟨fun _ ↦ id, fun _ ↦ rfl, fun _ ↦ id⟩,
    fun _ _ ↦ id, fun j hj ↦ ⟨rfl, fun other hother honly ↦ ⟨?_, honly⟩⟩⟩
  · obtain ⟨j, held, rfl, hheld⟩ := hkept.held party hparty
    refine ⟨j, held, rfl, hheld.winner, hheld.entry, hheld.stored, ?_, hheld.parent⟩
    rw [Disk.modifyFile_getElem?_of_ne _ _ change]
    · exact hheld.file
    · rintro rfl
      exact h.only path ((writers i).temporary_ne path).symm hheld.entry
  · rw [Disk.modifyFile_getElem?_of_ne _ _ change]
    rintro rfl
    exact honly _ (hapart.temporary_ne (fun heq ↦ hj (congrArg Party.publisher heq.symm)) path) h.entry

theorem Owns.modify (hapart : Apart writers) {inode : ℕ} {file : File U8} {contest : Contest ι κ}
    (h : Owns writers path κ i inode file contest) (change : File U8 → File U8) :
    Owns writers path κ i inode (change file) (contest.1.modifyFile inode change, contest.2) :=
  ⟨⟨(guarantee_modify hapart h change).kept h.waiting.kept, h.waiting.waiting⟩, h.entry, h.only,
    Disk.modifyFile_getElem? contest.1 h.file change⟩

theorem contested_same {request : Request Bytes U8} {outcome : Outcome} {contest : Contest ι κ}
    {answer : request.Answer} {disk' : SnapshotDisk}
    (h : Disk.device request outcome contest.1 = (answer, disk'))
    (hentry : disk'.entries path = contest.1.entries path) :
    contested path party request outcome contest = (answer, disk', contest.2) := by
  apply Race.credited_of_eq h
  rw [hentry]

theorem contested_quiet {request : Request Bytes U8} {outcome : Outcome} {contest : Contest ι κ}
    {answer : request.Answer} (h : Disk.device request outcome contest.1 = (answer, contest.1)) :
    contested path party request outcome contest = (answer, contest) := contested_same h rfl

/-! ## Before the link -/

/-- A temporary file of which the others know nothing. -/
def Written (writers : ι → Writer) (path : Storage.Path Bytes) (i : ι) (inode : ℕ) (file : File U8)
    (result : Except IoError Unit) (contest : Contest ι κ) : Prop :=
  Waiting writers path (.publisher i) contest ∧ (result = .ok () → Owns writers path κ i inode file contest)

theorem stable_written {inode : ℕ} {file : File U8} (result : Except IoError Unit) :
    Stable (rely writers path (.publisher i)) (Written (κ := κ) writers path i inode file result) :=
  fun _ _ h hother ↦ ⟨stable_waiting h.1 hother, fun hok ↦ stable_owns (h.2 hok) hother⟩

theorem outline_createNew (hapart : Apart writers) {contest : Contest ι κ}
    (h : Waiting writers path (.publisher i) contest) :
    Outline (contested path (.publisher i)) (rely writers path (.publisher i))
      (Guarantee writers path (.publisher i))
      (fun result contest ↦ Waiting writers path (.publisher i) contest ∧
        ∀ inode, result = .ok inode → Owns writers path κ i inode ⟨[], false⟩ contest)
      (Disk.createNew ((writers i).temporary path)) contest := by
  have hstable (result : Except IoError ℕ) : Stable (rely writers path (.publisher i))
      (fun contest : Contest ι κ ↦ Waiting writers path (.publisher i) contest ∧
        ∀ inode, result = .ok inode → Owns writers path κ i inode ⟨[], false⟩ contest) :=
    fun _ _ h hother ↦ ⟨stable_waiting h.1 hother, fun inode hinode ↦ stable_owns (h.2 inode hinode) hother⟩
  apply Outline.request (I := Disk.interface Bytes U8) (.createNew _) stable_waiting hstable _ h
  intro contest outcome h
  rcases contest.1.device_createNew ((writers i).temporary path) outcome with ⟨error, hcall⟩ | ⟨hnone, hcall⟩
  · rw [contested_quiet hcall]
    exact ⟨.refl contest, h, fun _ hinode ↦ by cases hinode⟩
  · have hne := (writers i).temporary_ne path
    rw [contested_same hcall (Disk.createFile_entries_of_ne _ hne.symm)]
    have hstep : Guarantee writers path (.publisher i) contest
        (contest.1.createFile ((writers i).temporary path), contest.2) := by
      apply guarantee_beside hapart (Disk.Beside.refl _ contest.1).createFile
      intro inode hlt
      rw [Disk.createFile_entries]
      exact fun heq ↦ absurd (Node.file.inj (Option.some.inj heq)) (by omega)
    have hwaiting : Waiting writers path (.publisher i)
      (contest.1.createFile ((writers i).temporary path), contest.2) :=
      ⟨hstep.kept h.kept, h.waiting⟩
    refine ⟨hstep, hwaiting, fun inode hinode ↦ ?_⟩
    obtain rfl := Except.ok.inj hinode
    refine ⟨hwaiting, Disk.createFile_entries _ _, fun other hother hentry ↦ ?_, ?_⟩
    · rw [Disk.createFile_entries_of_ne _ hother] at hentry
      exact absurd (contest.1.inode_lt other _ (hentry ▸ contest.1.entry_mem other)) (by omega)
    · rw [Disk.createFile_files, List.getElem?_concat_length]

theorem outline_writeAll (hapart : Apart writers) {inode : ℕ} {contest : Contest ι κ} (bytes : Bytes)
    (h : Owns writers path κ i inode ⟨[], false⟩ contest) :
    Outline (contested path (.publisher i)) (rely writers path (.publisher i))
      (Guarantee writers path (.publisher i)) (Written writers path i inode ⟨bytes, false⟩)
      (Disk.writeAll inode bytes) contest := by
  apply Outline.request (I := Disk.interface Bytes U8) (.writeAll _ _) stable_owns stable_written _ h
  intro contest outcome h
  rcases contest.1.device_writeAll outcome inode bytes with ⟨error, written, hcall⟩ | hcall
  · rw [contested_same hcall rfl]
    exact ⟨guarantee_modify hapart h _, (h.modify hapart _).waiting, fun hok ↦ by cases hok⟩
  · rw [contested_same hcall rfl]
    have howns := h.modify hapart fun file ↦ ⟨file.bytes ++ bytes, false⟩
    exact ⟨guarantee_modify hapart h _, howns.waiting, fun _ ↦ howns⟩

theorem outline_syncAll (hapart : Apart writers) {inode : ℕ} {bytes : Bytes} {contest : Contest ι κ}
    (h : Owns writers path κ i inode ⟨bytes, false⟩ contest) :
    Outline (contested path (.publisher i)) (rely writers path (.publisher i))
      (Guarantee writers path (.publisher i)) (Written writers path i inode ⟨bytes, true⟩)
      (Disk.syncAll inode) contest := by
  apply Outline.request (I := Disk.interface Bytes U8) (.syncAll _) stable_owns stable_written _ h
  intro contest outcome h
  rcases contest.1.device_syncAll outcome inode with ⟨error, hcall⟩ | hcall
  · rw [contested_quiet hcall]
    exact ⟨.refl contest, h.waiting, fun hok ↦ by cases hok⟩
  · rw [contested_same hcall rfl]
    have howns := h.modify hapart fun file ↦ ⟨file.bytes, true⟩
    exact ⟨guarantee_modify hapart h _, howns.waiting, fun _ ↦ howns⟩

/-! ## The link -/

theorem contested_hardLink (temporary : Storage.Path Bytes) (outcome : Outcome) (contest : Contest ι κ) :
    (∃ error, contested path party (.hardLink temporary path) outcome contest = (.error error, contest)) ∨
      contest.1.entries path = none ∧ contest.1.hasParent path = true ∧
        contested path party (.hardLink temporary path) outcome contest =
          (.ok (), contest.1.link temporary path, some party) := by
  rcases contest.1.device_hardLink path outcome temporary with
    ⟨error, hcall⟩ | ⟨⟨inode, hinode⟩, hnone, hparent, hcall⟩
  · exact .inl ⟨error, contested_quiet hcall⟩
  · refine .inr ⟨hnone, hparent, ?_⟩
    apply Race.credited_of_new hcall
    · rw [hnone, Option.isSome_none]
    · rw [Disk.link_entries, hinode, Option.isSome_some]

/-- The first link makes the temporary file the one at the destination. -/
theorem Owns.held_link {inode : ℕ} {contest : Contest ι κ}
    (h : Owns writers path κ i inode ⟨(writers i).snapshot.bytes, true⟩ contest)
    (hnone : contest.1.entries path = none)
    (hparent : contest.1.hasParent path = true) :
    contest.2 = none ∧
      Held writers path (contest.1.link ((writers i).temporary path) path,
        some (.publisher i : Party ι κ)) i inode := by
  have hfresh : contest.2 = none := by
    by_contra hsome
    obtain ⟨party, hparty⟩ := Option.ne_none_iff_exists'.mp hsome
    obtain ⟨j, other, _, hheld⟩ := h.waiting.kept.held party hparty
    rw [hheld.entry] at hnone
    cases hnone
  have hstored := h.waiting.kept.vacant hfresh
  refine ⟨hfresh, rfl, ?_, fun node hnode ↦ ?_, h.file, ?_⟩
  · rw [Disk.link_entries, h.entry]
  · rw [Disk.link_stored, h.entry, hstored] at hnode
    rcases List.mem_cons.mp hnode with rfl | hnode
    · exact .inr rfl
    · exact .inl (List.mem_singleton.mp hnode)
  · rw [Disk.hasParent_congr fun parent hsome ↦ Disk.link_entries_of_ne _ (Path.parent_ne_self hsome) _]
    exact hparent

theorem Owns.guarantee_link (hapart : Apart writers) {inode : ℕ} {contest : Contest ι κ}
    (h : Owns writers path κ i inode ⟨(writers i).snapshot.bytes, true⟩ contest)
    (hnone : contest.1.entries path = none)
    (hparent : contest.1.hasParent path = true) :
    Guarantee writers path (.publisher i) contest
      (contest.1.link ((writers i).temporary path) path, some (.publisher i)) := by
  obtain ⟨hfresh, hheld⟩ := h.held_link hnone hparent
  refine ⟨fun _ ↦ ⟨fun hsome ↦ absurd hsome (by simp), fun party hparty ↦ ?_⟩,
    ⟨fun party hparty ↦ ?_, fun hsome ↦ absurd hfresh hsome, fun hsome ↦ absurd hfresh hsome⟩,
    fun other hother hwinner ↦ absurd (Option.some.inj hwinner).symm hother, fun j hj ↦
      ⟨?_, fun other hother honly ↦ ?_⟩⟩
  · exact ⟨i, inode, (Option.some.inj hparty).symm, hheld⟩
  · rw [hfresh] at hparty
    cases hparty
  · exact Disk.link_entries_of_ne _ ((writers j).temporary_ne path) _
  · refine ⟨rfl, fun name hname hentry ↦ ?_⟩
    by_cases hpath : name = path
    · subst hpath
      rw [Disk.link_entries] at hentry
      exact honly _ (hapart.temporary_ne (fun heq ↦ hj (congrArg Party.publisher heq.symm)) name) hentry
    · rw [Disk.link_entries_of_ne _ hpath] at hentry
      exact honly name hname hentry

/-- The snapshot is at the destination, or its writer has not linked it. -/
def Linked (writers : ι → Writer) (path : Storage.Path Bytes) (party : Party ι κ)
    (result : Except IoError Unit)
    (contest : Contest ι κ) : Prop :=
  match result with
  | .ok () => Won writers path party contest
  | .error _ => Waiting writers path party contest

theorem stable_linked (result : Except IoError Unit) :
    Stable (rely writers path party) (Linked writers path party result) := by
  cases result with
  | ok _ => exact stable_won
  | error _ => exact stable_waiting

theorem outline_hardLink (hapart : Apart writers) {inode : ℕ} {contest : Contest ι κ}
    (h : Owns writers path κ i inode ⟨(writers i).snapshot.bytes, true⟩ contest) :
    Outline (contested path (.publisher i)) (rely writers path (.publisher i))
      (Guarantee writers path (.publisher i)) (Linked writers path (.publisher i))
      (Disk.hardLink ((writers i).temporary path) path) contest := by
  apply Outline.request (I := Disk.interface Bytes U8) (.hardLink _ _) stable_owns stable_linked _ h
  intro contest outcome h
  rcases contested_hardLink ((writers i).temporary path) outcome contest with
    ⟨error, hcall⟩ | ⟨hnone, hparent, hcall⟩
  · rw [hcall]
    exact ⟨.refl contest, h.waiting⟩
  · rw [hcall]
    have hstep := h.guarantee_link hapart hnone hparent
    exact ⟨hstep, hstep.kept h.waiting.kept, rfl⟩

theorem outline_publish (hapart : Apart writers) {contest : Contest ι κ}
    (h : Waiting writers path (.publisher i) contest) :
    Outline (contested path (.publisher i)) (rely writers path (.publisher i))
      (Guarantee writers path (.publisher i)) (Linked writers path (.publisher i))
      (publish ((writers i).temporary path) path (writers i).snapshot.bytes) contest := by
  unfold publish
  apply Outline.bindExcept _ (outline_createNew hapart h)
  · exact fun error _ _ hwaiting hother ↦ ⟨stable_waiting hwaiting.1 hother, fun _ herror ↦ by cases herror⟩
  · exact fun error contest hwaiting ↦ hwaiting.1
  intro inode contest hcreated
  apply Outline.bindExcept _ (outline_writeAll hapart _ (hcreated.2 inode rfl))
  · exact fun error ↦ stable_written _
  · exact fun error contest hwaiting ↦ hwaiting.1
  intro _ contest hwritten
  apply Outline.bindExcept _ (outline_syncAll hapart (hwritten.2 rfl))
  · exact fun error ↦ stable_written _
  · exact fun error contest hwaiting ↦ hwaiting.1
  intro _ contest hsynced
  exact outline_hardLink hapart (hsynced.2 rfl)

/-! ## After the link -/

/-- A crash keeps what is at the destination, if its directory is still there. -/
structure Settled (path : Storage.Path Bytes) (contest : Contest ι κ) : Prop where
  stored : contest.1.stored path = [contest.1.entries path]
  named : ∃ parent, path.parent = some parent ∧ parent.isEmpty = false

/-- What a writer knows of its snapshot when it is done. -/
def Persisted (writers : ι → Writer) (path : Storage.Path Bytes) (party : Party ι κ)
    (result : Except SnapshotPersistError Unit) (contest : Contest ι κ) : Prop :=
  match result with
  | .ok () => Won writers path party contest ∧ Settled path contest
  | .error (.published _) => Won writers path party contest
  | .error (.beforePublication _) => Waiting writers path party contest

theorem stable_persisted (result : Except SnapshotPersistError Unit) :
    Stable (rely writers path party) (Persisted writers path party result) := by
  match result with
  | .ok () =>
    rintro contest contest' ⟨hwon, hsettled⟩ hother
    refine ⟨stable_won hwon hother, ?_, hsettled.named⟩
    obtain ⟨other, _, hstep⟩ := hother
    exact hstep.respects.durable (by rw [hwon.won]; simp) hsettled.stored
  | .error (.published _) => exact stable_won
  | .error (.beforePublication _) => exact stable_waiting

/-- The name of a temporary file is removed. -/
theorem outline_removeFile (hapart : Apart writers) {assertion : Contest ι κ → Prop}
    (hstable : Stable (rely writers path (.publisher i)) assertion)
    (hkept : ∀ contest contest', assertion contest → Guarantee writers path (.publisher i) contest contest' →
      contest'.2 = contest.2 → assertion contest') {contest : Contest ι κ} (h : assertion contest) :
    Outline (contested path (.publisher i)) (rely writers path (.publisher i))
      (Guarantee writers path (.publisher i)) (fun _ ↦ assertion)
      (Disk.removeFile ((writers i).temporary path)) contest := by
  apply Outline.request (I := Disk.interface Bytes U8) (.removeFile _) hstable (fun _ ↦ hstable) _ h
  intro contest outcome h
  have hne := (writers i).temporary_ne path
  rcases contest.1.device_removeFile ((writers i).temporary path) outcome with ⟨error, hcall⟩ | hcall
  · rw [contested_quiet hcall]
    exact ⟨.refl contest, h⟩
  · rw [contested_same hcall (Disk.setEntry_entries_of_ne _ hne.symm _ _)]
    have hstep : Guarantee writers path (.publisher i) contest
        (contest.1.remove ((writers i).temporary path), contest.2) := by
      apply guarantee_beside hapart (Disk.Beside.remove _ _)
      intro inode _ hentry
      rw [Disk.remove, Disk.setEntry_entries] at hentry
      cases hentry
    exact ⟨hstep, hkept _ _ h hstep rfl⟩

theorem outline_abandon (hapart : Apart writers) (error : IoError) {contest : Contest ι κ}
    (h : Waiting writers path (.publisher i) contest) :
    Outline (contested path (.publisher i)) (rely writers path (.publisher i))
      (Guarantee writers path (.publisher i)) (Persisted writers path (.publisher i))
      (abandon ((writers i).temporary path) error) contest := by
  unfold abandon
  apply Outline.bind (outline_removeFile hapart stable_waiting _ h)
  · exact fun _ contest hwaiting ↦
      Outline.done (stable_persisted (.error (.beforePublication error))) (fun _ ↦ id) hwaiting
  · intro contest contest' hwaiting hstep hwinner
    refine ⟨hstep.kept hwaiting.kept, ?_⟩
    rw [hwinner]
    exact hwaiting.waiting

/-- Synchronizing the directory keeps what is at the destination. -/
theorem Won.guarantee_sync {contest : Contest ι κ} {parent : Storage.Path Bytes}
    (h : Won writers path party contest) (hparent : path.parent = some parent) :
    Guarantee writers path party contest (contest.1.syncDirectory parent, contest.2) := by
  have hstored : (contest.1.syncDirectory parent).stored path = [contest.1.entries path] := if_pos hparent
  refine ⟨fun hkept ↦ ⟨fun hnone ↦ ?_, fun other hother ↦ ?_⟩, ⟨fun _ ↦ id, fun _ ↦ rfl, fun _ _ ↦ hstored⟩,
    fun _ _ ↦ id, fun _ _ ↦ ⟨rfl, fun _ _ honly ↦ ⟨rfl, honly⟩⟩⟩
  · rw [h.won] at hnone
    cases hnone
  · obtain ⟨i, inode, rfl, hheld⟩ := hkept.held other hother
    refine ⟨i, inode, rfl, hheld.winner, hheld.entry, fun node hnode ↦ ?_, hheld.file, hheld.parent⟩
    rw [hstored, List.mem_singleton] at hnode
    rw [hnode, hheld.entry]
    exact .inr rfl

theorem outline_settle (hapart : Apart writers) {contest : Contest ι κ} {parent : Storage.Path Bytes}
    (hparent : path.parent = some parent) (h : Won writers path (.publisher i) contest) :
    Outline (contested path (.publisher i)) (rely writers path (.publisher i))
      (Guarantee writers path (.publisher i)) (Persisted writers path (.publisher i))
      (settle ((writers i).temporary path) parent) contest := by
  have hfailed (error : IoError) (contest : Contest ι κ) (hwon : Won writers path (.publisher i) contest) :
      Outline (contested path (.publisher i)) (rely writers path (.publisher i))
        (Guarantee writers path (.publisher i)) (Persisted writers path (.publisher i))
        (.done (.error (.published error))) contest :=
    Outline.done (stable_persisted (.error (.published error))) (fun _ ↦ id) hwon
  unfold settle
  apply Outline.bind (outline_removeFile hapart stable_won _ h)
  · rintro (error | _) contest hwon
    · exact hfailed error contest hwon
    apply Outline.call stable_won _ hwon
    intro contest outcome hwon
    obtain ⟨j, inode, _, hheld⟩ := hwon.kept.held _ hwon.won
    have hdirectory : contest.1.hasDirectory parent = true := by
      have hthere := hheld.parent
      unfold Disk.hasParent at hthere
      rw [hparent] at hthere
      exact hthere
    rcases contest.1.device_syncPath parent outcome hdirectory with ⟨error, hcall⟩ | ⟨hnamed, hcall⟩
    · rw [contested_quiet hcall]
      exact ⟨.refl contest, hfailed error contest hwon⟩
    · rw [contested_same hcall rfl]
      have hstep := hwon.guarantee_sync hparent
      refine ⟨hstep, Outline.done (stable_persisted (.ok ())) (fun _ ↦ id) ?_⟩
      exact ⟨⟨hstep.kept hwon.kept, hwon.won⟩, if_pos hparent, parent, hparent, hnamed⟩
  · intro contest contest' hwon hstep hwinner
    exact ⟨hstep.kept hwon.kept, hwinner.trans hwon.won⟩

theorem outline_persistSnapshotNew (hapart : Apart writers) {contest : Contest ι κ}
    (h : Waiting writers path (.publisher i) contest) :
    Outline (contested path (.publisher i)) (rely writers path (.publisher i))
      (Guarantee writers path (.publisher i)) (Persisted writers path (.publisher i))
      (persistSnapshotNew (writers i).process (writers i).suffix path (writers i).snapshot) contest := by
  have hfailed (error : IoError) (contest : Contest ι κ)
    (hwaiting : Waiting writers path (.publisher i) contest) :
      Outline (contested path (.publisher i)) (rely writers path (.publisher i))
        (Guarantee writers path (.publisher i)) (Persisted writers path (.publisher i))
        (.done (.error (.beforePublication error))) contest :=
    Outline.done (stable_persisted (.error (.beforePublication error))) (fun _ ↦ id) hwaiting
  unfold persistSnapshotNew
  apply Outline.call stable_waiting _ h
  intro contest outcome hwaiting
  have hquiet : contested path (.publisher i) (.pathExists path) outcome contest =
      ((Disk.device (.pathExists path) outcome contest.1).1, contest) :=
    contested_quiet (Prod.ext rfl (contest.1.device_pathExists path outcome))
  rw [hquiet]
  refine ⟨.refl contest, ?_⟩
  dsimp only [Program.bind]
  split
  · exact hfailed _ contest hwaiting
  cases hname : (fileName path).filter fun name ↦ (fromUtf8 name).isSome with
  | none => exact hfailed _ contest hwaiting
  | some name =>
    obtain ⟨hhead, _⟩ := Option.filter_eq_some_iff.mp hname
    obtain ⟨hhead, _⟩ := Option.filter_eq_some_iff.mp hhead
    have htemporary : (path.parent.getD ⟨false, [toUtf8 ['.']]⟩).join
        (temporaryName name (writers i).process (writers i).suffix) = (writers i).temporary path := by
      unfold Writer.temporary
      rw [hhead, Option.getD_some]
    obtain ⟨parent, hparent⟩ : ∃ parent, path.parent = some parent := by
      obtain ⟨rooted, names⟩ := path
      cases names with
      | nil => cases hhead
      | cons last names => exact ⟨_, rfl⟩
    dsimp only
    rw [htemporary, hparent, Option.getD_some]
    apply Outline.bind (outline_publish hapart hwaiting)
    rintro (error | _) contest hlinked
    · exact outline_abandon hapart error hlinked
    · exact outline_settle hapart hparent hlinked

/-! ## Readers -/

/-- What a reader knows of what it has read. -/
def Observed (writers : ι → Writer) (result : Except IoError Bytes) (contest : Contest ι κ) : Prop :=
  ∀ bytes, result = .ok bytes → ∃ i, contest.2 = some (.publisher i) ∧ bytes = (writers i).snapshot.bytes

theorem Held.content {contest : Contest ι κ} {inode : ℕ} (h : Held writers path contest i inode) :
    contest.1.content path = some ⟨(writers i).snapshot.bytes, true⟩ := by
  unfold Disk.content
  rw [h.entry]
  exact h.file

theorem Invariant.entry_none {contest : Contest ι κ} (h : Invariant writers path contest)
    (hnone : contest.2 = none) :
    contest.1.entries path = none :=
  List.mem_singleton.mp (h.vacant hnone ▸ contest.1.entry_mem path)

theorem outline_read {contest : Contest ι κ} (h : Invariant writers path contest) :
    Outline (contested path party) (rely writers path party) (Guarantee writers path party) (Observed writers)
      (Disk.read path) contest := by
  have hstable (result : Except IoError Bytes) :
      Stable (rely writers path party) (Observed writers result) := by
    rintro contest contest' hread ⟨other, _, hstep⟩ bytes hbytes
    obtain ⟨i, hwinner, hsnapshot⟩ := hread bytes hbytes
    exact ⟨i, hstep.respects.winner _ hwinner, hsnapshot⟩
  apply Outline.request (I := Disk.interface Bytes U8) (.read _) stable_invariant hstable _ h
  intro contest outcome h
  rcases contest.1.device_read path outcome with ⟨error, hcall⟩ | ⟨file, hcontent, hcall⟩
  · rw [contested_quiet hcall]
    exact ⟨.refl contest, fun bytes hbytes ↦ by cases hbytes⟩
  · rw [contested_quiet hcall]
    refine ⟨.refl contest, fun bytes hbytes ↦ ?_⟩
    obtain rfl := Except.ok.inj hbytes
    cases hwinner : contest.2 with
    | none =>
      unfold Disk.content at hcontent
      rw [h.entry_none hwinner] at hcontent
      cases hcontent
    | some party =>
      obtain ⟨i, inode, rfl, hheld⟩ := h.held party hwinner
      rw [hheld.content] at hcontent
      exact ⟨i, rfl, congrArg File.bytes (Option.some.inj hcontent).symm⟩

/-! ## After a crash -/

theorem content_of_entry {disk disk' : SnapshotDisk} {inode : ℕ} {bytes : Bytes} (hcrash : disk.Crash disk')
    (hentry : disk'.entries path = some (.file inode)) (hfile : disk.files[inode]? = some ⟨bytes, true⟩) :
    disk'.content path = some ⟨bytes, true⟩ := by
  unfold Disk.content
  rw [hentry]
  exact hcrash.files inode _ hfile rfl

/-- A crash leaves nothing at the destination, or the snapshot of the winner. -/
theorem Invariant.crash {contest : Contest ι κ} (h : Invariant writers path contest) {disk' : SnapshotDisk}
    (hcrash : contest.1.Crash disk') {parent : Storage.Path Bytes} (hparent : path.parent = some parent) :
    disk'.content path = none ∨
      ∃ i, contest.2 = some (.publisher i) ∧ disk'.content path =
        some ⟨(writers i).snapshot.bytes, true⟩ := by
  have hgone (hentry : disk'.entries path = none) : disk'.content path = none := by
    unfold Disk.content
    rw [hentry]
  obtain ⟨name, hjoin⟩ := Path.exists_join hparent
  by_cases hdirectory : disk'.hasDirectory parent = true
  · have hentry := hcrash.kept parent name hdirectory
    rw [← hjoin] at hentry
    cases hwinner : contest.2 with
    | none =>
      rw [h.vacant hwinner] at hentry
      exact .inl (hgone (List.mem_singleton.mp hentry))
    | some party =>
      obtain ⟨i, inode, rfl, hheld⟩ := h.held party hwinner
      rcases hheld.stored _ hentry with hnone | hsome
      · exact .inl (hgone hnone)
      · exact .inr ⟨i, rfl, content_of_entry hcrash hsome hheld.file⟩
  · have hlost := hcrash.lost parent name (by simpa using hdirectory)
    rw [← hjoin] at hlost
    exact .inl (hgone hlost)

theorem Settled.crash {contest : Contest ι κ} (h : Settled path contest)
    (hwon : Won writers path (.publisher i) contest)
    {disk' : SnapshotDisk} (hcrash : contest.1.Crash disk') {parent : Storage.Path Bytes}
    (hparent : path.parent = some parent) (hkept : disk'.hasDirectory parent = true) :
    disk'.content path = some ⟨(writers i).snapshot.bytes, true⟩ := by
  obtain ⟨name, hjoin⟩ := Path.exists_join hparent
  obtain ⟨j, inode, hj, hheld⟩ := hwon.kept.held _ hwon.won
  obtain rfl := Party.publisher.inj hj
  have hentry := hcrash.kept parent name hkept
  rw [← hjoin, h.stored, hheld.entry, List.mem_singleton] at hentry
  exact content_of_entry hcrash hentry hheld.file

/-! ## The race -/

section Race

variable [DecidableEq ι] [DecidableEq κ]

/-- What a writer has returned. -/
def persisted (race : Race (Party ι κ) (Disk.interface Bytes U8) Result SnapshotDisk) (i : ι) :
    Option (Except SnapshotPersistError Unit) := (race.programs (.publisher i)).result?

/-- What a reader has returned. -/
def observed (race : Race (Party ι κ) (Disk.interface Bytes U8) Result SnapshotDisk) (k : κ) :
    Option (Except IoError Bytes) := (race.programs (.reader k)).result?

/-- What the outlines promise, party by party. -/
def promise (writers : ι → Writer) (path : Storage.Path Bytes) :
    (party : Party ι κ) → Result party → Contest ι κ → Prop
  | .publisher i, result => Persisted writers path (.publisher i) result
  | .reader _, result => Observed writers result

/-- In any interleaving there is one winner at most. Writers know whether they are the one, and readers find
its whole snapshot or nothing. A crash leaves that or nothing; the snapshot of a writer that has returned `Ok`
stays where the directory stays, but at a bare file name no writer ever returns `Ok`. -/
theorem snapshot_race (writers : ι → Writer) (hapart : Apart writers) (path : Storage.Path Bytes)
    (disk : SnapshotDisk) (hvacant : disk.stored path = [none]) (actions : List (Party ι κ × Outcome)) :
    ∃ (winner : Option ι) (after : Race (Party ι κ) (Disk.interface Bytes U8) Result SnapshotDisk),
      (race writers path disk).run (fun _ ↦ Disk.device) actions = after ∧
      (∀ i, persisted after i = some (.ok ()) → winner = some i ∧
        ∃ parent, path.parent = some parent ∧ parent.isEmpty = false) ∧
      (∀ i error, persisted after i = some (.error (.published error)) → winner = some i) ∧
      (∀ i error, persisted after i = some (.error (.beforePublication error)) → winner ≠ some i) ∧
      (∀ k bytes, observed after k = some (.ok bytes) → ∃ i, winner = some i ∧ bytes =
        (writers i).snapshot.bytes) ∧
      after.state.content path = winner.map (fun i ↦ ⟨(writers i).snapshot.bytes, true⟩) ∧
      ∀ disk' parent, after.state.Crash disk' → path.parent = some parent →
        (disk'.content path = none ∨
          ∃ i, winner = some i ∧ disk'.content path = some ⟨(writers i).snapshot.bytes, true⟩) ∧
        ∀ i, persisted after i = some (.ok ()) → disk'.hasDirectory parent = true →
          disk'.content path = some ⟨(writers i).snapshot.bytes, true⟩ := by
  have hstart : Invariant writers path (disk, (none : Option (Party ι κ))) :=
    ⟨fun _ ↦ hvacant, fun party hparty ↦ by cases hparty⟩
  have houtlined : Race.Outlined (contested path) (rely writers path) (Guarantee writers path)
      (promise writers path)
      (⟨(race writers path disk).programs, disk, none⟩ :
        Race (Party ι κ) (Disk.interface Bytes U8) Result (Contest ι κ)) := by
    intro party
    cases party with
    | publisher i => exact outline_persistSnapshotNew hapart ⟨hstart, by simp⟩
    | reader k => exact outline_read hstart
  obtain ⟨houtlined', hinvariant⟩ := houtlined.run (fun i j hne _ _ h ↦ ⟨i, hne, h⟩)
    (fun _ _ _ hstep h ↦ hstep.kept h) hstart actions
  obtain ⟨winner, hcredited⟩ := Race.run_credited (fun disk : SnapshotDisk ↦ (disk.entries path).isSome)
    Disk.device (race writers path disk) none actions
  have hafter : Race.run (contested path) (⟨(race writers path disk).programs, disk, none⟩ :
      Race (Party ι κ) (Disk.interface Bytes U8) Result (Contest ι κ)) actions = _ := hcredited
  rw [hafter] at houtlined' hinvariant
  refine ⟨winner.bind Party.publisher?, _, rfl, ?_, ?_, ?_, ?_, ?_, ?_⟩
  · intro i hok
    obtain ⟨hwon, hsettled⟩ := houtlined'.promised (.publisher i) hok
    exact ⟨Party.bind_publisher?_eq_some.mpr hwon.won, hsettled.named⟩
  · intro i error hpublished
    have hwon : Won writers path _ _ := houtlined'.promised (.publisher i) hpublished
    exact Party.bind_publisher?_eq_some.mpr hwon.won
  · intro i error hbefore hwon
    have hwaiting : Waiting writers path _ _ := houtlined'.promised (.publisher i) hbefore
    exact hwaiting.waiting (Party.bind_publisher?_eq_some.mp hwon)
  · intro k bytes hobserved
    obtain ⟨i, hwon, hbytes⟩ := houtlined'.promised (.reader k) hobserved bytes rfl
    exact ⟨i, Party.bind_publisher?_eq_some.mpr hwon, hbytes⟩
  · cases hparty : winner with
    | none =>
      unfold Disk.content
      rw [hinvariant.entry_none hparty]
      rfl
    | some party =>
      obtain ⟨i, inode, rfl, hheld⟩ := hinvariant.held party hparty
      exact hheld.content
  · intro disk' parent hcrash hparent
    constructor
    · rcases hinvariant.crash hcrash hparent with hnone | ⟨i, hi, hcontent⟩
      · exact .inl hnone
      · exact .inr ⟨i, Party.bind_publisher?_eq_some.mpr hi, hcontent⟩
    · intro i hok hkept
      obtain ⟨hwon, hsettled⟩ := houtlined'.promised (.publisher i) hok
      exact hsettled.crash hwon hcrash hparent hkept

end Race

/-! ## Two writers and a reader -/

/-- Two calls of one process. -/
def sampleWriters (second : Bool) : Writer :=
  ⟨0, bif second then 1 else 0, [bif second then 1 else 0],
    ⟨List.replicate digestSize 7, List.length_replicate⟩, 1⟩

theorem sampleWriters_apart : Apart sampleWriters := by
  unfold Apart
  decide

def samplePath : Storage.Path Bytes := ⟨true, [[98]]⟩

/-- Both writers find no snapshot; the second links first. The reader comes last. -/
def sampleActions : List (Party Bool Unit × Outcome) :=
  (.publisher false, .granted) :: List.replicate 7 (.publisher true, .granted) ++
    List.replicate 5 (.publisher false, .granted) ++ [(.reader (), .granted)]

set_option maxRecDepth 10000 in
theorem sampleActions_results :
    let after := (race sampleWriters samplePath Disk.empty).run (fun _ ↦ Disk.device) sampleActions
    persisted after true = some (.ok ()) ∧
      persisted after false = some (.error (.beforePublication (.os .alreadyExists))) ∧
      observed after () = some (.ok [1]) := by
  decide

theorem snapshot_race_sample :
    ∃ after : Race (Party Bool Unit) (Disk.interface Bytes U8) Result SnapshotDisk,
      persisted after true = some (.ok ()) ∧
      persisted after false = some (.error (.beforePublication (.os .alreadyExists))) ∧
      ∀ disk', after.state.Crash disk' → disk'.content samplePath = some ⟨[1], true⟩ := by
  obtain ⟨winner, after, hrun, _, _, _, _, _, hcrash⟩ :=
    snapshot_race sampleWriters sampleWriters_apart samplePath Disk.empty rfl sampleActions
  have hresults := sampleActions_results
  rw [hrun] at hresults
  refine ⟨after, hresults.1, hresults.2.1, fun disk' hdisk ↦ ?_⟩
  exact (hcrash disk' ⟨true, []⟩ hdisk rfl).2 true hresults.1 rfl

end DeterministicExchange.Recovery.Persist
