import DeterministicExchange.Engine.Bundle

/-!
# Publishing and reading bundles

Publishers of different bundles may race for one destination, readers may read it
at any time, and all may stop anywhere or crash. The directory can be created only
once, so that one publisher wins; what it has not completed, no reader accepts.
-/

namespace DeterministicExchange.RecoveryBundle

open Machine Codec Recovery Storage

variable {ι κ : Type}

def Result : Party ι κ → Type
  | .publisher _ => Except BundleError Unit
  | .reader _ => Except BundleError RecoveryBundle

abbrev BundleDisk : Type := Disk Bytes U8

/-- Each publisher has a bundle for the destination, where all readers look. -/
def race (sha256 : Bytes → Digest) (bundles : ι → RecoveryBundle) (destination : Path Bytes)
    (disk : BundleDisk) : Race (Party ι κ) (Disk.interface Bytes U8) Result BundleDisk where
  programs
    | .publisher i => publishNew sha256 (bundles i) destination
    | .reader _ => read sha256 destination
  state := disk

/-- The three files of a bundle, as a crash would leave them. -/
structure Complete (bundle : RecoveryBundle) (destination : Path Bytes) (disk : BundleDisk) : Prop where
  configuration : disk.Durable (destination.join configName) bundle.configuration.encode
  snapshot : disk.Durable (destination.join snapshotName) bundle.snapshot
  tail : disk.Durable (destination.join tailName) bundle.tail

/-- A complete bundle with its marker, in a directory that stays if its parent is synchronized. -/
structure Finished (sha256 : Bytes → Digest) (bundle : RecoveryBundle) (destination : Path Bytes)
    (disk : BundleDisk) : Prop where
  valid : bundle.configuration.validate = .ok ()
  complete : Complete bundle destination disk
  committed : disk.Durable (destination.join committedName) (bundle.marker sha256)
  directory : ∀ parent, destination.parent = some parent → parent.isEmpty = false →
    disk.stored destination = [some .directory]

/-- The disk, and the party that has created the destination. -/
abbrev Contest (ι κ : Type) : Type := BundleDisk × Option (Party ι κ)

section Claims

variable (bundles : ι → RecoveryBundle) (destination : Path Bytes)

/-- The winner has completed its files. -/
structure Seen (i : ι) (contest : Contest ι κ) : Prop where
  winner : contest.2 = some (.publisher i)
  valid : (bundles i).configuration.validate = .ok ()
  complete : Complete (bundles i) destination contest.1

/-- A marker is nowhere before the files are complete. -/
def Trusted (contest : Contest ι κ) : Prop :=
  contest.1.stored (destination.join committedName) = [none] ∨ ∃ i, Seen bundles destination i contest

structure Invariant (contest : Contest ι κ) : Prop where
  trusted : Trusted bundles destination contest
  vacant : contest.2 = none → contest.1.Vacant destination
  claimed : contest.2 ≠ none → contest.1.entries destination = some .directory

/-- What the winner may do, and only the winner. -/
structure Claims (party : Party ι κ) (contest contest' : Contest ι κ) : Prop where
  kept : Invariant bundles destination contest'
  mine : contest.2 = none ∨ contest.2 = some party
  winner : contest'.2 = some party
  seen : ∀ i, Seen bundles destination i contest → Seen bundles destination i contest'

def guarantee (party : Party ι κ) (contest contest' : Contest ι κ) : Prop :=
  contest' = contest ∨ Claims bundles destination party contest contest'

def rely (party : Party ι κ) (contest contest' : Contest ι κ) : Prop :=
  ∃ other, other ≠ party ∧ guarantee bundles destination other contest contest'

end Claims

/-- The disk with a record of the party that has created the destination. -/
def contested (destination : Path Bytes) :
    Party ι κ → Device (Disk.interface Bytes U8) Outcome (Contest ι κ) :=
  Race.credited (fun disk ↦ (disk.entries destination).isSome) Disk.device

/-- What the results of the parties promise. -/
def promise (sha256 : Bytes → Digest) (bundles : ι → RecoveryBundle) (destination : Path Bytes) :
    (party : Party ι κ) → Result party → Contest ι κ → Prop
  | .publisher i, result, contest => result = .ok () →
      contest.2 = some (.publisher i) ∧ Finished sha256 (bundles i) destination contest.1
  | .reader _, result, contest => ∀ bundle, result = .ok bundle →
      ∃ i, contest.2 = some (.publisher i) ∧ bundle = bundles i

variable {sha256 : Bytes → Digest} {bundles : ι → RecoveryBundle} {destination : Path Bytes}
  {party : Party ι κ}

/-! ## What the others leave alone -/

theorem Invariant.guaranteed {contest contest' : Contest ι κ} (h : Invariant bundles destination contest)
    (hstep : guarantee bundles destination party contest contest') :
    Invariant bundles destination contest' := by
  rcases hstep with rfl | hclaims
  · exact h
  · exact hclaims.kept

theorem stable_invariant : Stable (rely bundles destination party) (Invariant bundles destination) := by
  rintro contest contest' h ⟨other, _, hstep⟩
  exact h.guaranteed hstep

theorem stable_seen (i : ι) : Stable (rely bundles destination party) (Seen bundles destination i) := by
  rintro contest contest' h ⟨other, _, hstep⟩
  rcases hstep with rfl | hclaims
  · exact h
  · exact hclaims.seen i h

/-- Nobody touches what the winner has. -/
theorem stable_of_winner {assertion : Contest ι κ → Prop}
    (h : ∀ contest, assertion contest → contest.2 = some party) :
    Stable (rely bundles destination party) assertion := by
  rintro contest contest' hassertion ⟨other, hne, hstep⟩
  rcases hstep with rfl | hclaims
  · exact hassertion
  · rcases hclaims.mine with hnone | hother
    · rw [h contest hassertion] at hnone
      cases hnone
    · rw [h contest hassertion] at hother
      exact absurd (Option.some.inj hother).symm hne

theorem stable_waiting : Stable (rely bundles destination party)
    fun contest ↦ Invariant bundles destination contest ∧ contest.2 ≠ some party := by
  rintro contest contest' ⟨h, hwaiting⟩ ⟨other, hne, hstep⟩
  refine ⟨h.guaranteed hstep, ?_⟩
  rcases hstep with rfl | hclaims
  · exact hwaiting
  · rw [hclaims.winner]
    exact fun hparty ↦ hne (Option.some.inj hparty)

/-! ## Calls that end a program when they are refused -/

section Calls

variable {S α β : Type} {device : Device (Disk.interface Bytes U8) Outcome S}
    {relied guaranteed : S → S → Prop}

theorem outline_call (assertion : S → Prop) {request : Request Bytes U8}
    {answered : request.Answer → Except IoError α} {promise : Except BundleError α → S → Prop}
    (hstable : Stable relied assertion) (hpromise : ∀ result, Stable relied (promise result))
    (h : ∀ state outcome, assertion state → guaranteed state (device request outcome state).2 ∧
      promise ((answered (device request outcome state).1).mapError .io) (device request outcome state).2)
    {state : S} (hstate : assertion state) :
    Outline device relied guaranteed promise
      (BundleError.call (.call request fun answer ↦ .done (answered answer))) state := by
  apply Outline.call hstable _ hstate
  intro state outcome hstate
  obtain ⟨hstep, hpromised⟩ := h state outcome hstate
  exact ⟨hstep, Outline.done (hpromise _) (fun _ ↦ id) hpromised⟩

end Calls

/-! ## Readers -/

theorem contested_same {request : Request Bytes U8} {outcome : Outcome} {contest : Contest ι κ}
    {answer : request.Answer} (h : Disk.device request outcome contest.1 = (answer, contest.1)) :
    contested destination party request outcome contest = (answer, contest) := Race.credited_of_eq h rfl party

/-- A device that reads what is on the disk. -/
def Reads (device : Device (Disk.interface Bytes U8) Outcome (Contest ι κ)) : Prop :=
  ∀ path outcome contest, (∃ error, device (.read path) outcome contest = (.error error, contest)) ∨
    ∃ file, contest.1.content path = some file ∧ device (.read path) outcome contest =
      (.ok file.bytes, contest)

theorem reads_contested : Reads (contested destination party) := by
  intro path outcome contest
  rcases contest.1.device_read path outcome with ⟨error, h⟩ | ⟨file, hcontent, h⟩
  · exact .inl ⟨error, contested_same h⟩
  · exact .inr ⟨file, hcontent, contested_same h⟩

/-- The disk with a record that does not change any more. -/
def settled : Device (Disk.interface Bytes U8) Outcome (Contest ι κ) := fun request outcome contest ↦
  ((Disk.device request outcome contest.1).1, (Disk.device request outcome contest.1).2, contest.2)

theorem reads_settled : Reads (settled : Device (Disk.interface Bytes U8) Outcome (Contest ι κ)) := by
  intro path outcome contest
  unfold settled
  rcases contest.1.device_read path outcome with ⟨error, h⟩ | ⟨file, hcontent, h⟩
  · rw [h]
    exact .inl ⟨error, rfl⟩
  · rw [h]
    exact .inr ⟨file, hcontent, rfl⟩

section Readers

variable {device : Device (Disk.interface Bytes U8) Outcome (Contest ι κ)}
  {relied guaranteed : Contest ι κ → Contest ι κ → Prop}

/-- A file of a complete bundle reads as what was written. -/
theorem outline_readSeen {i : ι} {path : Path Bytes} {bytes : Bytes} {α : Type}
    {f : Bytes → BundleProgram α} {promise : Except BundleError α → Contest ι κ → Prop}
    (hreads : Reads device) (hseen : Stable relied (Seen bundles destination i))
    (hquiet : ∀ contest, guaranteed contest contest)
    (hfile : ∀ contest : Contest ι κ, Seen bundles destination i contest → contest.1.Durable path bytes)
    (hfailed : ∀ error contest, promise (.error error) contest)
    (hafter : ∀ contest, Seen bundles destination i contest →
      Outline device relied guaranteed promise (f bytes) contest)
    {contest : Contest ι κ} (h : Seen bundles destination i contest) :
    Outline device relied guaranteed promise
      (BundleError.call (Disk.read path) >>= f : BundleProgram α) contest := by
  apply Outline.bindExcept (fun result contest ↦ Seen bundles destination i contest ∧ ∀ read, result =
    .ok read → read = bytes)
  · apply outline_call _ hseen _ _ h
    · exact fun result contest contest' hread hother ↦ ⟨hseen hread.1 hother, hread.2⟩
    · intro contest outcome h
      rcases hreads path outcome contest with ⟨error, hcall⟩ | ⟨file, hcontent, hcall⟩
      · rw [hcall]
        exact ⟨hquiet contest, h, fun read hread ↦ by cases hread⟩
      · rw [hcall]
        rw [(hfile contest h).content] at hcontent
        obtain rfl := Option.some.inj hcontent
        exact ⟨hquiet contest, h, fun read hread ↦ (Except.ok.inj hread).symm⟩
  · exact fun error contest contest' hread hother ↦ ⟨hseen hread.1 hother, hread.2⟩
  · exact fun error contest _ ↦ hfailed error contest
  · intro read contest ⟨h, hread⟩
    obtain rfl := hread read rfl
    exact hafter contest h

/-- Whoever reads a marker reads the bundle of the winner, or an error. -/
theorem outline_read (hreads : Reads device) (assertion : Contest ι κ → Prop)
    (hstable : Stable relied assertion)
    (htrusted : ∀ contest, assertion contest → Trusted bundles destination contest)
    (hseen : ∀ i, Stable relied (Seen bundles destination i)) (hquiet : ∀ contest, guaranteed contest contest)
    (haddressable : ∀ i, (bundles i).configuration.Addressable) {contest : Contest ι κ}
    (h : assertion contest) :
    Outline device relied guaranteed
      (fun result contest ↦ ∀ bundle, result = .ok bundle →
        ∃ i, contest.2 = some (.publisher i) ∧ bundle = bundles i)
      (read sha256 destination) contest := by
  have hfailed (error : BundleError) (contest : Contest ι κ) :
      Outline device relied guaranteed
        (fun result contest ↦ ∀ bundle, result = .ok bundle →
          ∃ i, contest.2 = some (.publisher i) ∧ bundle = bundles i)
        (throw error : BundleProgram RecoveryBundle) contest := by
    intro _ _ bundle hbundle
    cases hbundle
  have herror (error : BundleError) (contest : Contest ι κ) (bundle : RecoveryBundle)
      (hbundle : (.error error : Except BundleError RecoveryBundle) = .ok bundle) :
      ∃ i, contest.2 = some (.publisher i) ∧ bundle = bundles i := by cases hbundle
  unfold read
  apply Outline.bindExcept (fun result contest ↦ ∀ marker, result = .ok marker → ∃ i,
    Seen bundles destination i contest)
  · apply outline_call _ hstable _ _ h
    · intro result contest contest' hread hother marker hmarker
      obtain ⟨i, hi⟩ := hread marker hmarker
      exact ⟨i, hseen i hi hother⟩
    · intro contest outcome h
      rcases hreads (destination.join committedName) outcome contest with
        ⟨error, hcall⟩ | ⟨file, hcontent, hcall⟩
      · rw [hcall]
        exact ⟨hquiet contest, fun marker hmarker ↦ by cases hmarker⟩
      · rw [hcall]
        refine ⟨hquiet contest, fun _ _ ↦ ?_⟩
        rcases htrusted contest h with habsent | hwinner
        · have hentry : contest.1.entries (destination.join committedName) = none :=
            List.mem_singleton.mp (habsent ▸ contest.1.entry_mem _)
          unfold Disk.content at hcontent
          rw [hentry] at hcontent
          cases hcontent
        · exact hwinner
  · intro error contest contest' _ _ marker hmarker
    cases hmarker
  · exact fun error contest _ ↦ herror error contest
  · intro marker contest hmarker
    obtain ⟨i, hi⟩ := hmarker marker rfl
    by_cases hmagic : (!magic.isPrefixOf marker) = true
    · rw [if_pos hmagic]
      exact hfailed _ _
    rw [if_neg hmagic]
    unfold readFiles
    apply outline_readSeen hreads (hseen i) hquiet (fun contest h ↦ h.complete.configuration) _ _ hi
    · exact herror
    intro contest hi
    rw [EngineConfig.decode_encode (haddressable i), hi.valid]
    apply outline_readSeen hreads (hseen i) hquiet (fun contest h ↦ h.complete.snapshot) _ _ hi
    · exact herror
    intro contest hi
    apply outline_readSeen hreads (hseen i) hquiet (fun contest h ↦ h.complete.tail) _ _ hi
    · exact herror
    intro contest hi
    dsimp only
    split
    · exact hfailed _ _
    · exact Outline.done (hseen i)
        (fun contest hi bundle hbundle ↦ ⟨i, hi.winner, (Except.ok.inj hbundle).symm⟩) hi

end Readers

/-! ## The publisher that has won -/

theorem contested_winner {request : Request Bytes U8} {outcome : Outcome} {contest : Contest ι κ}
    (h : contest.2 = some party) :
    contested destination party request outcome contest =
      ((Disk.device request outcome contest.1).1, (Disk.device request outcome contest.1).2, some party) := by
  unfold contested Race.credited
  dsimp only
  rw [h, ite_self]

namespace Complete

variable {bundle : RecoveryBundle} {disk disk' : BundleDisk}

theorem syncDirectory (h : Complete bundle destination disk) (directory : Path Bytes) :
    Complete bundle destination (disk.syncDirectory directory) :=
  ⟨h.configuration.syncDirectory directory, h.snapshot.syncDirectory directory,
    h.tail.syncDirectory directory⟩

/-- The marker is written beside the files. -/
theorem beside (h : Complete bundle destination disk)
    (hbeside : Disk.Beside (destination.join committedName) disk disk') :
    Complete bundle destination disk' := by
  have hne {name : Bytes} (hname : name ≠ committedName) :
      destination.join name ≠ destination.join committedName := fun h ↦ hname (Path.join_inj.mp h)
  exact ⟨h.configuration.beside hbeside (hne (by decide)), h.snapshot.beside hbeside (hne (by decide)),
    h.tail.beside hbeside (hne (by decide))⟩

end Complete

/-- The steps of a winner that creates or writes one file. -/
def Writes (bundles : ι → RecoveryBundle) (destination : Path Bytes) (party : Party ι κ) (path : Path Bytes)
    (disk : BundleDisk) : Prop :=
  ∀ disk₁ disk₂, disk.Beside path disk₁ → disk.Beside path disk₂ →
    Claims bundles destination party (disk₁, some party) (disk₂, some party)

/-- Whatever becomes of a call, the winner has written beside everything else; an answer says more. -/
def Progress {α : Type} (party : Party ι κ) (path : Path Bytes) (disk : BundleDisk)
    (reached : α → BundleDisk → Prop) (result : Except BundleError α) (contest : Contest ι κ) : Prop :=
  contest.2 = some party ∧ disk.Beside path contest.1 ∧ ∀ a, result = .ok a → reached a contest.1

theorem stable_progress {α : Type} {path : Path Bytes} {disk : BundleDisk} {reached : α → BundleDisk → Prop}
    (result : Except BundleError α) :
    Stable (rely bundles destination party) (Progress party path disk reached result) :=
  stable_of_winner fun _ h ↦ h.1

theorem mapError_eq_ok {α ε δ : Type} {f : ε → δ} {result : Except ε α} {a : α}
    (h : result.mapError f = .ok a) : result = .ok a := by
  cases result with
  | error error => cases h
  | ok b => rw [Except.ok.inj h]

/-- One call while a file is written. -/
theorem outline_writing (assertion : BundleDisk → Prop) {α : Type} {path : Path Bytes} {disk : BundleDisk}
    {request : Request Bytes U8} {answered : request.Answer → Except IoError α}
    {reached : α → BundleDisk → Prop} (hwrites : Writes bundles destination party path disk)
    (h : ∀ disk' outcome, disk.Beside path disk' → assertion disk' →
      disk.Beside path (Disk.device request outcome disk').2 ∧
        ∀ a, answered (Disk.device request outcome disk').1 = .ok a →
          reached a (Disk.device request outcome disk').2)
    {contest : Contest ι κ} (hwinner : contest.2 = some party) (hbeside : disk.Beside path contest.1)
    (hassertion : assertion contest.1) :
    Outline (contested destination party) (rely bundles destination party)
      (guarantee bundles destination party)
      (Progress party path disk reached)
      (BundleError.call (.call request fun answer ↦ .done (answered answer))) contest := by
  apply outline_call (fun contest : Contest ι κ ↦ contest.2 = some party ∧
    disk.Beside path contest.1 ∧ assertion contest.1)
  · exact stable_of_winner fun _ h ↦ h.1
  · exact stable_progress
  · rintro ⟨disk', winner⟩ outcome ⟨hwinner, hbeside, hassertion⟩
    obtain rfl : winner = some party := hwinner
    obtain ⟨hbeside', hreached⟩ := h disk' outcome hbeside hassertion
    rw [contested_winner rfl]
    exact ⟨.inr (hwrites _ _ hbeside hbeside'), rfl, hbeside', fun a ha ↦ hreached a (mapError_eq_ok ha)⟩
  · exact ⟨hwinner, hbeside, hassertion⟩

/-- A new file is created, written and synchronized. -/
theorem outline_writeNew {path : Path Bytes} {bytes : Bytes} {disk : BundleDisk}
    (hstored : disk.stored path = [none]) (hwrites : Writes bundles destination party path disk) :
    Outline (contested destination party) (rely bundles destination party)
      (guarantee bundles destination party)
      (Progress party path disk fun _ disk' ↦ ∃ inode, disk'.Holds path inode ⟨bytes, true⟩)
      (writeNew path bytes) (disk, some party) := by
  unfold writeNew
  apply Outline.bindExcept (Progress party path disk fun inode disk' ↦
    disk.files.length ≤ inode ∧ disk'.Holds path inode ⟨[], false⟩)
  · apply outline_writing (· = disk) hwrites _ rfl (Disk.Beside.refl path disk) rfl
    rintro _ outcome hbeside rfl
    rcases Disk.device_createNew _ path outcome with ⟨error, hcall⟩ | ⟨_, hcall⟩
    · rw [hcall]
      exact ⟨hbeside, fun inode hinode ↦ by cases hinode⟩
    · rw [hcall]
      refine ⟨hbeside.createFile, fun inode hinode ↦ ?_⟩
      obtain rfl := Except.ok.inj hinode
      exact ⟨Nat.le_refl _, .createFile hstored⟩
  · exact fun error ↦ stable_progress _
  · exact fun error contest h ↦ ⟨h.1, h.2.1, fun _ herror ↦ by cases herror⟩
  intro inode contest ⟨hwinner, hbeside, hinode⟩
  obtain ⟨hnew, hholds⟩ := hinode inode rfl
  apply Outline.bindExcept (Progress party path disk fun _ disk' ↦
    disk'.Holds path inode ⟨bytes, false⟩)
  · apply outline_writing (Disk.Holds · path inode ⟨[], false⟩) hwrites _ hwinner
      hbeside hholds
    intro disk' outcome hbeside hholds
    rcases disk'.device_writeAll outcome inode bytes with ⟨error, written, hcall⟩ | hcall
    · rw [hcall]
      exact ⟨hbeside.modifyFile hnew _, fun _ hok ↦ by cases hok⟩
    · rw [hcall]
      exact ⟨hbeside.modifyFile hnew _, fun _ _ ↦ hholds.modifyFile _⟩
  · exact fun error ↦ stable_progress _
  · exact fun error contest h ↦ ⟨h.1, h.2.1, fun _ herror ↦ by cases herror⟩
  intro _ contest ⟨hwinner, hbeside, hwritten⟩
  apply outline_writing (Disk.Holds · path inode ⟨bytes, false⟩) hwrites _ hwinner
    hbeside (hwritten () rfl)
  intro disk' outcome hbeside hholds
  rcases disk'.device_syncAll outcome inode with ⟨error, hcall⟩ | hcall
  · rw [hcall]
    exact ⟨hbeside, fun _ hok ↦ by cases hok⟩
  · rw [hcall]
    exact ⟨hbeside.modifyFile hnew _, fun _ _ ↦ ⟨inode, hholds.modifyFile _⟩⟩

/-- The directory of the winner, and the one that it is in. -/
structure Opened (destination : Path Bytes) (disk : BundleDisk) : Prop where
  entry : disk.entries destination = some .directory
  parent : ∀ parent, destination.parent = some parent → disk.hasDirectory parent = true

theorem Opened.beside {disk disk' : BundleDisk} {name : Bytes} (h : Opened destination disk)
    (hbeside : disk.Beside (destination.join name) disk') : Opened destination disk' := by
  refine ⟨?_, fun parent hparent ↦ ?_⟩
  · rw [hbeside.entries _ (destination.join_ne_self name).symm, h.entry]
  · rw [hbeside.hasDirectory (Path.parent_ne_join hparent name), h.parent parent hparent]

theorem Opened.hasDirectory {disk : BundleDisk} (h : Opened destination disk) :
    disk.hasDirectory destination = true := by
  unfold Disk.hasDirectory
  rw [h.entry, decide_eq_true rfl, Bool.or_true]

/-- Files are written before the directory is synchronized. -/
theorem writes_unsynced {disk : BundleDisk} {name : Bytes} (hopened : Opened destination disk)
    (hcommitted : disk.stored (destination.join committedName) = [none]) (hname : name ≠ committedName)
    (hpending : ∀ i disk', disk.Beside (destination.join name) disk' →
      ¬ Complete (bundles i) destination disk') :
    Writes bundles destination party (destination.join name) disk := by
  intro disk₁ disk₂ h₁ h₂
  have hne : destination.join committedName ≠ destination.join name :=
    fun h ↦ hname (Path.join_inj.mp h).symm
  refine ⟨⟨.inl ?_, fun h ↦ absurd h (by simp), fun _ ↦ (hopened.beside h₂).entry⟩,
    .inr rfl, rfl, fun i hseen ↦ ?_⟩
  · rw [h₂.stored _ hne, hcommitted]
  · exact absurd hseen.complete (hpending i disk₁ h₁)

/-- The marker is written after that. -/
theorem writes_committed {i : ι} {disk : BundleDisk} (hopened : Opened destination disk)
    (hvalid : (bundles i).configuration.validate = .ok ())
    (hcomplete : Complete (bundles i) destination disk) :
    Writes bundles destination (.publisher i : Party ι κ) (destination.join committedName) disk := by
  intro disk₁ disk₂ h₁ h₂
  have hseen : Seen bundles destination i (disk₂, some (.publisher i : Party ι κ)) :=
    ⟨rfl, hvalid, hcomplete.beside h₂⟩
  refine ⟨⟨.inr ⟨i, hseen⟩, fun h ↦ absurd h (by simp), fun _ ↦ (hopened.beside h₂).entry⟩,
    .inr rfl, rfl, fun j hj ↦ ?_⟩
  obtain rfl := Party.publisher.inj (Option.some.inj hj.winner)
  exact hseen

theorem claims_sync {disk : BundleDisk} {directory : Path Bytes} (hopened : Opened destination disk)
    (htrusted : Trusted bundles destination (disk.syncDirectory directory, some party)) :
    Claims bundles destination party (disk, some party) (disk.syncDirectory directory, some party) :=
  ⟨⟨htrusted, fun h ↦ absurd h (by simp), fun _ ↦ hopened.entry⟩, .inr rfl, rfl,
    fun _ hseen ↦ ⟨hseen.winner, hseen.valid, hseen.complete.syncDirectory directory⟩⟩

/-- A directory of the winner is synchronized. -/
theorem outline_sync {disk : BundleDisk} {directory : Path Bytes}
    (hdirectory : disk.hasDirectory directory = true)
    (hopened : Opened destination disk)
    (htrusted : Trusted bundles destination (disk.syncDirectory directory, some party)) :
    Outline (contested destination party) (rely bundles destination party)
      (guarantee bundles destination party)
      (fun result contest ↦ contest.2 = some party ∧
        (result = .ok () → contest.1 = disk.syncDirectory directory))
      (syncDirectory directory) (disk, some party) := by
  apply outline_call (· = (disk, some party))
  · exact stable_of_winner fun _ h ↦ congrArg Prod.snd h
  · exact fun result ↦ stable_of_winner fun _ h ↦ h.1
  · rintro _ outcome rfl
    rw [contested_winner rfl]
    rcases disk.device_syncPath directory outcome hdirectory with ⟨error, hcall⟩ | ⟨_, hcall⟩
    · rw [hcall]
      exact ⟨.inl rfl, rfl, fun hok ↦ by cases hok⟩
    · rw [hcall]
      exact ⟨.inr (claims_sync hopened htrusted), rfl, fun _ ↦ rfl⟩
  · rfl

theorem promise_error {i : ι} (error : BundleError) (contest : Contest ι κ) :
    promise sha256 bundles destination (.publisher i) (.error error) contest := by
  intro hok
  cases hok

/-- The marker is written, and both directories are synchronized. -/
theorem outline_commit {i : ι} {disk : BundleDisk} (hopened : Opened destination disk)
    (hvalid : (bundles i).configuration.validate = .ok ())
    (hcommitted : disk.stored (destination.join committedName) = [none])
    (hcomplete : Complete (bundles i) destination disk) :
    Outline (contested destination (.publisher i : Party ι κ)) (rely bundles destination (.publisher i))
      (guarantee bundles destination (.publisher i)) (promise sha256 bundles destination (.publisher i))
      (do
        writeNew (destination.join committedName) ((bundles i).marker sha256)
        syncDirectory destination
        syncParent destination : BundleProgram Unit) (disk, some (.publisher i)) := by
  apply Outline.bindExcept _ (outline_writeNew hcommitted (writes_committed hopened hvalid hcomplete))
  · exact fun error ↦ stable_progress _
  · exact fun error contest _ ↦ promise_error error contest
  rintro _ ⟨disk₁, winner⟩ ⟨hwinner, hbeside, hheld⟩
  obtain rfl : winner = some (.publisher i) := hwinner
  obtain ⟨inode, hholds⟩ := hheld () rfl
  have hopened₁ : Opened destination disk₁ := hopened.beside hbeside
  have hopened₂ : Opened destination (disk₁.syncDirectory destination) := ⟨hopened₁.entry, hopened₁.parent⟩
  have hcomplete₁ := (hcomplete.beside hbeside).syncDirectory destination
  have hmarker := Disk.Durable.of_holds hholds
  apply Outline.bindExcept _ (outline_sync hopened₁.hasDirectory hopened₁
    (.inr ⟨i, rfl, hvalid, hcomplete₁⟩))
  · exact fun error ↦ stable_of_winner fun _ h ↦ h.1
  · exact fun error contest _ ↦ promise_error error contest
  rintro _ ⟨disk₂, winner⟩ ⟨hwinner, hsynced⟩
  obtain rfl : winner = some (.publisher i) := hwinner
  obtain rfl : disk₂ = disk₁.syncDirectory destination := hsynced rfl
  unfold syncParent
  cases hparent : destination.parent.filter fun path ↦ !path.isEmpty with
  | none =>
    refine Outline.done (stable_of_winner fun contest h ↦ h.1) (fun contest h _ ↦ h) ⟨rfl, ?_⟩
    refine ⟨hvalid, hcomplete₁, hmarker, fun parent hparent' hnamed ↦ ?_⟩
    rw [hparent', Option.filter_some, hnamed] at hparent
    cases hparent
  | some parent =>
    obtain ⟨hparent, hnamed⟩ := Option.filter_eq_some_iff.mp hparent
    have hseen : Seen bundles destination i
        ((disk₁.syncDirectory destination).syncDirectory parent, some (.publisher i : Party ι κ)) :=
      ⟨rfl, hvalid, hcomplete₁.syncDirectory parent⟩
    apply Outline.mono _ (outline_sync (hopened₂.parent parent hparent) hopened₂ (.inr ⟨i, hseen⟩))
    rintro result ⟨disk₃, winner⟩ ⟨hwinner, hlast⟩ hok
    obtain rfl : disk₃ = _ := hlast hok
    refine ⟨hwinner, hvalid, hseen.complete, hmarker.syncDirectory parent, fun _ _ _ ↦ ?_⟩
    have hstored : ((disk₁.syncDirectory destination).syncDirectory parent).stored destination =
        [disk₁.entries destination] := if_pos hparent
    rw [hstored, hopened₁.entry]

theorem outline_fill {i : ι} {disk : BundleDisk} (hopened : Opened destination disk)
    (hvalid : (bundles i).configuration.validate = .ok ())
    (hbelow : ∀ name, disk.stored (destination.join name) = [none]) :
    Outline (contested destination (.publisher i : Party ι κ)) (rely bundles destination (.publisher i))
      (guarantee bundles destination (.publisher i)) (promise sha256 bundles destination (.publisher i))
      (fill sha256 (bundles i) destination) (disk, some (.publisher i)) := by
  have hne {name name' : Bytes} (hname : name ≠ name') : destination.join name ≠ destination.join name' :=
    fun h ↦ hname (Path.join_inj.mp h)
  unfold fill
  -- the configuration: the tail may still be missing
  apply Outline.bindExcept _ (outline_writeNew (hbelow _) (writes_unsynced hopened (hbelow _) (by decide) _))
  · exact fun error ↦ stable_progress _
  · exact fun error contest _ ↦ promise_error error contest
  · rintro _ ⟨disk₁, winner⟩ ⟨hwinner, hbeside₁, hheld₁⟩
    obtain rfl : winner = some (.publisher i) := hwinner
    obtain ⟨inode₁, hconfiguration⟩ := hheld₁ () rfl
    have hopened₁ : Opened destination disk₁ := hopened.beside hbeside₁
    have hbelow₁ {name : Bytes} (hname : name ≠ configName) :
        disk₁.stored (destination.join name) = [none] := by
      rw [hbeside₁.stored _ (hne hname), hbelow]
    -- the snapshot: the tail may still be missing
    apply Outline.bindExcept _ (outline_writeNew (hbelow₁ (by decide))
      (writes_unsynced hopened₁ (hbelow₁ (by decide)) (by decide) _))
    · exact fun error ↦ stable_progress _
    · exact fun error contest _ ↦ promise_error error contest
    · rintro _ ⟨disk₂, winner⟩ ⟨hwinner, hbeside₂, hheld₂⟩
      obtain rfl : winner = some (.publisher i) := hwinner
      obtain ⟨inode₂, hsnapshot⟩ := hheld₂ () rfl
      have hopened₂ : Opened destination disk₂ := hopened₁.beside hbeside₂
      have hbelow₂ {name : Bytes} (hname : name ≠ configName) (hname' : name ≠ snapshotName) :
          disk₂.stored (destination.join name) = [none] := by
        rw [hbeside₂.stored _ (hne hname'), hbelow₁ hname]
      have hconfiguration₂ := hconfiguration.beside hbeside₂ (hne (by decide))
      -- the tail: the snapshot may still be missing
      apply Outline.bindExcept _ (outline_writeNew (hbelow₂ (by decide) (by decide))
        (writes_unsynced hopened₂ (hbelow₂ (by decide) (by decide)) (by decide) _))
      · exact fun error ↦ stable_progress _
      · exact fun error contest _ ↦ promise_error error contest
      · rintro _ ⟨disk₃, winner⟩ ⟨hwinner, hbeside₃, hheld₃⟩
        obtain rfl : winner = some (.publisher i) := hwinner
        obtain ⟨inode₃, htail⟩ := hheld₃ () rfl
        have hopened₃ : Opened destination disk₃ := hopened₂.beside hbeside₃
        have hcomplete : Complete (bundles i) destination (disk₃.syncDirectory destination) :=
          ⟨.of_holds (hconfiguration₂.beside hbeside₃ (hne (by decide))),
            .of_holds (hsnapshot.beside hbeside₃ (hne (by decide))), .of_holds htail⟩
        have hcommitted : (disk₃.syncDirectory destination).stored (destination.join committedName) =
            [none] := by
          have hstored : disk₃.stored (destination.join committedName) = [none] := by
            rw [hbeside₃.stored _ (hne (by decide)), hbelow₂ (by decide) (by decide)]
          have hentry : disk₃.entries (destination.join committedName) = none :=
            List.mem_singleton.mp (hstored ▸ disk₃.entry_mem _)
          rw [Disk.syncDirectory_stored_join, hentry]
        apply Outline.bindExcept _ (outline_sync hopened₃.hasDirectory hopened₃ (.inl hcommitted))
        · exact fun error ↦ stable_of_winner fun _ h ↦ h.1
        · exact fun error contest _ ↦ promise_error error contest
        · rintro _ ⟨disk₄, winner⟩ ⟨hwinner, hsynced⟩
          obtain rfl : winner = some (.publisher i) := hwinner
          obtain rfl : disk₄ = disk₃.syncDirectory destination := hsynced rfl
          exact outline_commit ⟨hopened₃.entry, hopened₃.parent⟩ hvalid hcommitted hcomplete
      · intro j disk' hbeside hcomplete
        apply hcomplete.snapshot.none_notMem
        rw [hbeside.stored _ (hne (by decide)), hsnapshot.stored]
        exact List.mem_cons_of_mem _ List.mem_cons_self
    · intro j disk' hbeside hcomplete
      apply hcomplete.tail.none_notMem
      rw [hbeside.stored _ (hne (by decide)), hbelow₁ (by decide)]
      exact List.mem_cons_self
  · intro j disk' hbeside hcomplete
    apply hcomplete.tail.none_notMem
    rw [hbeside.stored _ (hne (by decide)), hbelow]
    exact List.mem_cons_self

theorem contested_createDir (outcome : Outcome) (contest : Contest ι κ) :
    (∃ error, contested destination party (.createDir destination) outcome contest =
      (.error error, contest)) ∨
      contest.1.entries destination = none ∧ contest.1.hasParent destination = true ∧
        ∃ h, contested destination party (.createDir destination) outcome contest =
          (.ok (), contest.1.setEntry destination (some .directory) h, some party) := by
  rcases contest.1.device_createDir destination outcome with ⟨error, hcall⟩ | ⟨hnone, hparent, h, hcall⟩
  · exact .inl ⟨error, contested_same hcall⟩
  · refine .inr ⟨hnone, hparent, h, ?_⟩
    apply Race.credited_of_new hcall
    · rw [hnone, Option.isSome_none]
    · rw [Disk.setEntry_entries, Option.isSome_some]

/-- Whoever creates the directory has won. -/
theorem outline_publishNew {i : ι} {contest : Contest ι κ} (h : Invariant bundles destination contest)
    (hwaiting : contest.2 ≠ some (.publisher i)) :
    Outline (contested destination (.publisher i : Party ι κ)) (rely bundles destination (.publisher i))
      (guarantee bundles destination (.publisher i)) (promise sha256 bundles destination (.publisher i))
      (publishNew sha256 (bundles i) destination) contest := by
  unfold publishNew
  cases hvalid : (bundles i).configuration.validate with
  | error error => exact fun contest' _ ↦ promise_error _ contest'
  | ok valid =>
    apply Outline.bindExcept (fun result contest ↦ result = .ok () → contest.2 = some (.publisher i) ∧
      Opened destination contest.1 ∧ ∀ name, contest.1.stored (destination.join name) = [none])
    · apply outline_call _ stable_waiting _ _ ⟨h, hwaiting⟩
      · intro result contest contest' hopened hother hok
        exact @stable_of_winner _ _ _ _ _ (fun contest : Contest ι κ ↦ contest.2 = some (.publisher i) ∧
          Opened destination contest.1 ∧ ∀ name, contest.1.stored (destination.join name) = [none])
          (fun _ h ↦ h.1) contest contest' (hopened hok) hother
      · rintro ⟨disk, winner⟩ outcome ⟨h, hwaiting⟩
        rcases contested_createDir outcome (disk, winner) with
          ⟨error, hcall⟩ | ⟨hnone, hparent, hdirectory, hcall⟩
        · rw [hcall]
          exact ⟨.inl rfl, fun hok ↦ by cases hok⟩
        · rw [hcall]
          -- the directory was not there: nobody had won
          have hfresh : winner = none := by
            by_contra hsome
            have hentry := h.claimed hsome
            rw [hnone] at hentry
            cases hentry
          subst hfresh
          have hvacant : disk.Vacant destination := h.vacant rfl
          have hbelow (name : Bytes) :
              (disk.setEntry destination (some .directory) hdirectory).stored (destination.join name) =
                [none] := by
            rw [Disk.setEntry_stored_of_ne _ (destination.join_ne_self name), hvacant.below]
          have hopened : Opened destination (disk.setEntry destination (some .directory) hdirectory) := by
            refine ⟨Disk.setEntry_entries _ _ _ _, fun parent hsome ↦ ?_⟩
            unfold Disk.hasParent at hparent
            rw [hsome] at hparent
            unfold Disk.hasDirectory at hparent ⊢
            rw [Disk.setEntry_entries_of_ne _ (Path.parent_ne_self hsome)]
            exact hparent
          refine ⟨.inr ⟨⟨.inl (hbelow _), fun h ↦ absurd h (by simp), fun _ ↦ hopened.entry⟩, .inl rfl, rfl,
            fun j hj ↦ ?_⟩, fun _ ↦ ⟨rfl, hopened, hbelow⟩⟩
          cases hj.winner
    · intro error contest contest' _ _ hok
      cases hok
    · exact fun error contest _ ↦ promise_error error contest
    · rintro _ ⟨disk, winner⟩ hopened
      obtain ⟨hwinner, hopened, hbelow⟩ := hopened rfl
      obtain rfl : winner = some (.publisher i) := hwinner
      exact outline_fill hopened hvalid hbelow

/-! ## After a crash -/

namespace Complete

variable {bundle : RecoveryBundle} {disk disk' : BundleDisk}

theorem crash (h : Complete bundle destination disk) (hcrash : disk.Crash disk')
    (hdirectory : disk'.hasDirectory destination = true) : Complete bundle destination disk' :=
  ⟨h.configuration.crash hcrash hdirectory, h.snapshot.crash hcrash hdirectory,
    h.tail.crash hcrash hdirectory⟩

end Complete

/-- What was never complete has no marker after a crash either. -/
theorem Trusted.crash {contest : Contest ι κ} {disk' : BundleDisk} (h : Trusted bundles destination contest)
    (hcrash : contest.1.Crash disk') : Trusted bundles destination (disk', contest.2) := by
  have hgone (hentry : disk'.entries (destination.join committedName) = none) :
      Trusted bundles destination (disk', contest.2) := by
    refine .inl ?_
    rw [hcrash.settled.2, hentry]
  by_cases hdirectory : disk'.hasDirectory destination = true
  · rcases h with habsent | ⟨i, hseen⟩
    · have hentry := hcrash.kept destination committedName hdirectory
      rw [habsent, List.mem_singleton] at hentry
      exact hgone hentry
    · exact .inr ⟨i, hseen.winner, hseen.valid, hseen.complete.crash hcrash hdirectory⟩
  · exact hgone (hcrash.lost destination committedName (by simpa using hdirectory))

theorem Finished.crash {bundle : RecoveryBundle} {disk disk' : BundleDisk}
    (h : Finished sha256 bundle destination disk) (hcrash : disk.Crash disk') {parent : Path Bytes}
    (hparent : destination.parent = some parent) (hnamed : parent.isEmpty = false)
    (hkept : disk'.hasDirectory parent = true) : Finished sha256 bundle destination disk' := by
  have hentry : disk'.entries destination = some .directory := by
    obtain ⟨name, hjoin⟩ := Path.exists_join hparent
    have hmem := hcrash.kept parent name hkept
    rw [← hjoin, h.directory parent hparent hnamed, List.mem_singleton] at hmem
    exact hmem
  have hdirectory : disk'.hasDirectory destination = true := by
    unfold Disk.hasDirectory
    rw [hentry, decide_eq_true rfl, Bool.or_true]
  refine ⟨h.valid, h.complete.crash hcrash hdirectory, h.committed.crash hcrash hdirectory, fun _ _ _ ↦ ?_⟩
  rw [hcrash.settled.2, hentry]

/-! ## Reading what was published -/

theorem run_call_read {α : Type} {path : Path Bytes} {file : File U8} {disk : BundleDisk}
    (h : disk.content path = some file) (f : Bytes → BundleProgram α) (outcomes : List Outcome) :
    Program.run Disk.device (BundleError.call (Disk.read path) >>= f : BundleProgram α) disk
        (.granted :: outcomes) =
      Program.run Disk.device (f file.bytes) disk outcomes := by
  have hstep : Program.step Disk.device .granted disk
      (BundleError.call (Disk.read path) >>= f : BundleProgram α) = (f file.bytes, disk) := by
    show Program.step Disk.device .granted disk (.call (Request.read path) _) = _
    unfold Program.step
    dsimp only
    rw [disk.device_read_granted path h]
    rfl
  unfold Program.run
  rw [List.foldl_cons, hstep]

/-- What a reader needs to find to return a bundle. -/
structure Stored (sha256 : Bytes → Digest) (bundle : RecoveryBundle) (destination : Path Bytes)
    (disk : BundleDisk) : Prop where
  committed : (disk.content (destination.join committedName)).map File.bytes = some (bundle.marker sha256)
  configuration : (disk.content (destination.join configName)).map File.bytes =
    some bundle.configuration.encode
  snapshot : (disk.content (destination.join snapshotName)).map File.bytes = some bundle.snapshot
  tail : (disk.content (destination.join tailName)).map File.bytes = some bundle.tail

theorem Finished.stored {bundle : RecoveryBundle} {disk : BundleDisk}
    (h : Finished sha256 bundle destination disk) : Stored sha256 bundle destination disk := by
  constructor
  · rw [h.committed.content, Option.map_some]
  · rw [h.complete.configuration.content, Option.map_some]
  · rw [h.complete.snapshot.content, Option.map_some]
  · rw [h.complete.tail.content, Option.map_some]

/-- What a reader alone returns. -/
def readBack (sha256 : Bytes → Digest) (destination : Path Bytes) (disk : BundleDisk)
    (outcomes : List Outcome) :
    Option (Except BundleError RecoveryBundle) :=
  (Program.run Disk.device (read sha256 destination) disk outcomes).1.result?

/-- A reader whose calls are granted reads a valid bundle that is stored. -/
theorem Stored.readBack {bundle : RecoveryBundle} {disk : BundleDisk}
    (h : Stored sha256 bundle destination disk)
    (haddressable : bundle.configuration.Addressable) (hvalid : bundle.configuration.validate = .ok ()) :
    readBack sha256 destination disk (List.replicate 4 .granted) = some (.ok bundle) := by
  obtain ⟨committed, hcommitted, hmarker⟩ := Option.map_eq_some_iff.mp h.committed
  obtain ⟨configuration, hconfiguration, hencoded⟩ := Option.map_eq_some_iff.mp h.configuration
  obtain ⟨snapshot, hsnapshot, hbytes⟩ := Option.map_eq_some_iff.mp h.snapshot
  obtain ⟨tail, htail, hrecords⟩ := Option.map_eq_some_iff.mp h.tail
  have hmagic : magic.isPrefixOf (bundle.marker sha256) = true := by
    rw [List.isPrefixOf_iff_prefix]
    exact List.prefix_append _ _
  have hdecode : EngineConfig.decode bundle.configuration.encode = .ok bundle.configuration := by
    rw [EngineConfig.decode_encode haddressable, hvalid]
    rfl
  unfold RecoveryBundle.readBack RecoveryBundle.read
  rw [show List.replicate 4 Outcome.granted = .granted :: List.replicate 3 .granted from rfl,
    run_call_read hcommitted, hmarker, hmagic, if_neg (by simp)]
  unfold readFiles
  rw [show List.replicate 3 Outcome.granted = .granted :: List.replicate 2 .granted from rfl,
    run_call_read hconfiguration, hencoded, hdecode,
    show List.replicate 2 Outcome.granted = .granted :: List.replicate 1 .granted from rfl,
    run_call_read hsnapshot, hbytes,
    show List.replicate 1 Outcome.granted = .granted :: [] from rfl, run_call_read htail, hrecords]
  dsimp only
  rw [if_neg (not_not_intro rfl)]
  rfl

/-! ## The race -/

theorem Trusted.readBack (haddressable : ∀ i, (bundles i).configuration.Addressable) {contest : Contest ι κ}
    (h : Trusted bundles destination contest) {outcomes : List Outcome} {bundle : RecoveryBundle}
    (hread : readBack sha256 destination contest.1 outcomes = some (.ok bundle)) :
    ∃ i, contest.2 = some (.publisher i) ∧ bundle = bundles i := by
  have houtline : Outline settled (fun _ _ ↦ False) (fun contest contest' ↦ contest'.2 = contest.2)
      (fun result contest ↦ ∀ bundle, result = .ok bundle →
        ∃ i, contest.2 = some (.publisher i) ∧ bundle = bundles i)
      (read sha256 destination) contest := by
    apply outline_read reads_settled (Trusted bundles destination) (stable_alone _) (fun _ ↦ id)
      (fun _ ↦ stable_alone _) _ haddressable h
    exact fun _ ↦ rfl
  obtain ⟨hpromise, hwinner⟩ := houtline.run (fun contest' ↦ contest'.2 = contest.2)
    (fun _ _ hstep h ↦ hstep.trans h) rfl outcomes
  have herase := Program.run_erase settled Disk.device (Prod.fst : Contest ι κ → BundleDisk)
    (fun _ _ _ ↦ rfl) (read sha256 destination) contest outcomes
  unfold RecoveryBundle.readBack at hread
  rw [herase] at hread
  rw [Program.result?_eq_some.mp hread] at hpromise
  obtain ⟨i, hi, hbundle⟩ := hpromise.promised bundle rfl
  exact ⟨i, hwinner.symm.trans hi, hbundle⟩

section Race

variable [DecidableEq ι] [DecidableEq κ]

/-- What a publisher has returned. -/
def published (race : Race (Party ι κ) (Disk.interface Bytes U8) Result BundleDisk) (i : ι) :
    Option (Except BundleError Unit) := (race.programs (.publisher i)).result?

/-- What a reader has returned. -/
def observed (race : Race (Party ι κ) (Disk.interface Bytes U8) Result BundleDisk) (k : κ) :
    Option (Except BundleError RecoveryBundle) := (race.programs (.reader k)).result?

/-- What the parties promise, and what holds of the disk and of the party that has created the destination,
after any run of the race. -/
theorem race_outlined (sha256 : Bytes → Digest) (bundles : ι → RecoveryBundle)
    (haddressable : ∀ i, (bundles i).configuration.Addressable) (destination : Path Bytes) (disk : BundleDisk)
    (hvacant : disk.Vacant destination) (actions : List (Party ι κ × Outcome)) :
    ∃ winner : Option (Party ι κ),
      Race.Outlined (contested destination) (rely bundles destination) (guarantee bundles destination)
        (promise sha256 bundles destination)
        (⟨((race sha256 bundles destination disk).run (fun _ ↦ Disk.device) actions).programs,
          ((race sha256 bundles destination disk).run (fun _ ↦ Disk.device) actions).state, winner⟩ :
          Race (Party ι κ) (Disk.interface Bytes U8) Result (Contest ι κ)) ∧
      Invariant bundles destination
        (((race sha256 bundles destination disk).run (fun _ ↦ Disk.device) actions).state, winner) := by
  have hstart : Invariant bundles destination (disk, (none : Option (Party ι κ))) :=
    ⟨.inl (hvacant.below _), fun _ ↦ hvacant, fun h ↦ absurd rfl h⟩
  have houtlined : Race.Outlined (contested destination) (rely bundles destination)
      (guarantee bundles destination) (promise sha256 bundles destination)
      (⟨(race sha256 bundles destination disk).programs, disk, none⟩ :
        Race (Party ι κ) (Disk.interface Bytes U8) Result (Contest ι κ)) := by
    intro party
    cases party with
    | publisher i => exact outline_publishNew hstart (by simp)
    | reader k =>
      exact outline_read reads_contested (Invariant bundles destination) stable_invariant
        (fun _ h ↦ h.trusted)
        stable_seen (fun _ ↦ .inl rfl) haddressable hstart
  obtain ⟨houtlined', hinvariant⟩ := houtlined.run (fun i j hne _ _ h ↦ ⟨i, hne, h⟩)
    (fun _ _ _ hstep h ↦ h.guaranteed hstep) hstart actions
  obtain ⟨winner, hcredited⟩ := Race.run_credited (fun disk : BundleDisk ↦ (disk.entries destination).isSome)
    Disk.device (race sha256 bundles destination disk) none actions
  have hafter : Race.run (contested destination)
    (⟨(race sha256 bundles destination disk).programs, disk, none⟩ :
      Race (Party ι κ) (Disk.interface Bytes U8) Result (Contest ι κ)) actions = _ := hcredited
  rw [hafter] at houtlined' hinvariant
  exact ⟨winner, houtlined', hinvariant⟩

/-- At most one publisher has published. All readers see its bundle or an error, also after a crash, and
its bundle is there once it has returned: also after a crash, if the path of the bundle names its parent and
the parent is still there. -/
theorem publication_race (sha256 : Bytes → Digest) (bundles : ι → RecoveryBundle)
    (haddressable : ∀ i, (bundles i).configuration.Addressable) (destination : Path Bytes) (disk : BundleDisk)
    (hvacant : disk.Vacant destination) (actions : List (Party ι κ × Outcome)) :
    ∃ (winner : Option ι) (after : Race (Party ι κ) (Disk.interface Bytes U8) Result BundleDisk),
      (race sha256 bundles destination disk).run (fun _ ↦ Disk.device) actions = after ∧
      (∀ i, published after i = some (.ok ()) → winner = some i ∧
        readBack sha256 destination after.state (List.replicate 4 .granted) = some (.ok (bundles i))) ∧
      (∀ k bundle, observed after k = some (.ok bundle) → ∃ i, winner = some i ∧ bundle = bundles i) ∧
      ∀ disk', after.state.Crash disk' →
        (∀ outcomes bundle, readBack sha256 destination disk' outcomes = some (.ok bundle) →
          ∃ i, winner = some i ∧ bundle = bundles i) ∧
        ∀ i parent, published after i = some (.ok ()) → destination.parent = some parent →
          parent.isEmpty = false → disk'.hasDirectory parent = true →
          readBack sha256 destination disk' (List.replicate 4 .granted) = some (.ok (bundles i)) := by
  obtain ⟨winner, houtlined', hinvariant⟩ :=
    race_outlined sha256 bundles haddressable destination disk hvacant actions
  refine ⟨winner.bind Party.publisher?, _, rfl, ?_, ?_, ?_⟩
  · intro i hpublished
    obtain ⟨hwinner, hfinished⟩ := houtlined'.promised (.publisher i) hpublished rfl
    exact ⟨Party.bind_publisher?_eq_some.mpr hwinner,
      hfinished.stored.readBack (haddressable i) hfinished.valid⟩
  · intro k bundle hobserved
    obtain ⟨i, hwinner, hbundle⟩ := houtlined'.promised (.reader k) hobserved bundle rfl
    exact ⟨i, Party.bind_publisher?_eq_some.mpr hwinner, hbundle⟩
  · intro disk' hcrash
    constructor
    · intro outcomes bundle hread
      obtain ⟨i, hwinner, hbundle⟩ := (hinvariant.trusted.crash hcrash).readBack haddressable hread
      exact ⟨i, Party.bind_publisher?_eq_some.mpr hwinner, hbundle⟩
    · intro i parent hpublished hparent hnamed hkept
      obtain ⟨_, hfinished⟩ := houtlined'.promised (.publisher i) hpublished rfl
      exact (hfinished.crash hcrash hparent hnamed hkept).stored.readBack (haddressable i) hfinished.valid

end Race

/-! ## Two publishers and a reader -/

def sampleBundles (second : Bool) : RecoveryBundle :=
  ⟨EngineConfig.sampleConfig, [bif second then 2 else 1], []⟩

theorem sampleConfig_addressable : EngineConfig.sampleConfig.Addressable := by
  have hones : ∀ capacity ∈ EngineConfig.sampleConfig.capacities.toList, capacity < 2 ^ 64 := by decide
  exact fun capacity hcapacity ↦ hones capacity (Vector.mem_toList_iff.mpr hcapacity)

def samplePath : Storage.Path Bytes := ⟨true, [[98]]⟩

/-- Both publishers start; the second is refused. The reader comes last. -/
def sampleActions : List (Party Bool Unit × Outcome) :=
  (.publisher false, .granted) :: (.publisher true, .granted) ::
    List.replicate 15 (.publisher false, .granted) ++ List.replicate 4 (.reader (), .granted)

set_option maxRecDepth 10000 in
theorem sampleActions_results :
    let after := (race EngineConfig.sampleDigest sampleBundles samplePath Disk.empty).run
      (fun _ ↦ Disk.device)
      sampleActions
    published after false = some (.ok ()) ∧ published after true = some (.error (.io (.os .alreadyExists))) ∧
      observed after () = some (.ok (sampleBundles false)) := by
  decide

theorem publication_race_sample :
    ∃ after : Race (Party Bool Unit) (Disk.interface Bytes U8) Result BundleDisk,
      published after false = some (.ok ()) ∧
      (∀ k bundle, observed after k = some (.ok bundle) → bundle = sampleBundles false) ∧
      ∀ disk', after.state.Crash disk' →
        readBack EngineConfig.sampleDigest samplePath disk' (List.replicate 4 .granted) =
          some (.ok (sampleBundles false)) := by
  obtain ⟨winner, after, hrun, hpublished, hobserved, hcrash⟩ :=
    publication_race EngineConfig.sampleDigest sampleBundles
      (fun _ ↦ sampleConfig_addressable) samplePath Disk.empty ⟨rfl, fun _ ↦ rfl⟩ sampleActions
  have hresult : published after false = some (.ok ()) := by
    rw [← hrun]
    exact sampleActions_results.1
  refine ⟨after, hresult, fun k bundle hbundle ↦ ?_, fun disk' hdisk ↦ ?_⟩
  · obtain ⟨i, hwinner, rfl⟩ := hobserved k bundle hbundle
    rw [(hpublished false hresult).1] at hwinner
    rw [← Option.some.inj hwinner]
  · exact (hcrash disk' hdisk).2 false ⟨true, []⟩ hresult rfl rfl rfl

end DeterministicExchange.RecoveryBundle
