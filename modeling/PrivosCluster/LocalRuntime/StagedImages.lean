import PrivosCluster.LocalRuntime.ArtifactStore
import PrivosCluster.LocalRuntime.OciArchiveSpec

/-!
# Staged artifacts and their images

Between two calls every entry of the index has its image in Docker, as long as a removal that takes
an image away goes on to drop its entry, and no other entry has that image. Nothing in the store
sees to the second: entries are kept apart by archives, images by their content.
-/

namespace PrivosCluster.LocalRuntime

open AsyncProgram List StagedArtifactIndex StoreState Option

/-- The image under the reference of a record is the one that its archive describes. -/
def StagedArtifactRecord.IsProven (inspection : String → ImageInspect)
    (record : StagedArtifactRecord) : Prop :=
  (record.imageRef = record.configDigest ∧
      (inspection record.imageRef).id = record.configDigest) ∨
    (record.imageRef = record.manifestDigest ∧ (inspection record.imageRef).descriptor =
      some ⟨OCI_MANIFEST_MEDIA_TYPE, record.manifestDigest, record.manifestSizeBytes⟩)

/-- Docker has the image of a record. -/
structure HasImage (inspection : String → ImageInspect) (s : StoreState)
    (record : StagedArtifactRecord) : Prop where
  shown : record.imageRef ∈ s.shown
  proven : record.IsProven inspection

def StoreState.entry (s : StoreState) (digest : String) : Option StagedArtifactRecord :=
  resolve true s.file digest

/-- Every entry of the index has its image. -/
def Backed (inspection : String → ImageInspect) (s : StoreState) : Prop :=
  ∀ digest record, s.entry digest = some record → HasImage inspection s record

/-- At most one entry has the image under a reference. -/
def Sole (inspection : String → ImageInspect) (s : StoreState) (reference : String) : Prop :=
  ∀ digest digest' record record', s.entry digest = some record → s.entry digest' = some record' →
    (inspection record.imageRef).id = (inspection reference).id →
    (inspection record'.imageRef).id = (inspection reference).id → digest = digest'

/-- A removal that takes an image away does not fail and concerns one entry; until that entry is
dropped, no inspection and no write of the index fails. -/
structure Tidy (inspection : String → ImageInspect) (c : StoreCall) (x : StoreChoice)
    (s : StoreState) : Prop where
  takesAway : ∀ reference, c = .removeImage reference → x.removes = true →
    reference ∈ (s.settled x).shown → x.failure = none ∧ Sole inspection s reference
  goesOn : ¬ Backed inspection (s.settled x) →
    (∃ reference, c = .inspectImage reference) ∨ (∃ digest, c = .recordRemoved digest) →
    x.failure = none

variable {s'' : StoreState} {c : StoreCall} {f : α → Stored β} {p : Stored α} {reference : String}
  {input : StageInput}

section

variable {inspection : String → ImageInspect} {s s' : StoreState} {x : StoreChoice}
  {digest : String} {record : StagedArtifactRecord}

@[simp] theorem entry_settled : (s.settled x).entry digest = s.entry digest := rfl

theorem HasImage.shows (h : HasImage inspection s record) (hshown : s.shown ⊆ s'.shown) :
    HasImage inspection s' record :=
  ⟨hshown h.shown, h.proven⟩

theorem shown_settled : s.shown ⊆ (s.settled x).shown := subset_append_left _ _

theorem Backed.settled (h : Backed inspection s) : Backed inspection (s.settled x) :=
  fun digest record hentry ↦ (h digest record hentry).shows shown_settled

/-- What is read from the index is an entry, also when the reading fails. -/
theorem entry_of_readIndex {readable : Bool}
    (h : (readIndex readable s.file).record digest = some record) : s.entry digest = some record := by
  unfold readIndex at h
  split at h
  next => exact h
  next => simp at h

/-- What a call leaves that neither takes an image away nor writes the index. -/
structure Grows (s s' : StoreState) : Prop where
  file : s'.file = s.file
  shown : s.shown ⊆ s'.shown

namespace Grows

theorem refl (s : StoreState) : Grows s s := ⟨rfl, fun _ h ↦ h⟩

theorem trans (h : Grows s s') (h' : Grows s' s'') : Grows s s'' :=
  ⟨h'.file.trans h.file, fun _ hmem ↦ h'.shown (h.shown hmem)⟩

theorem settled (s : StoreState) (x : StoreChoice) : Grows s (s.settled x) :=
  ⟨rfl, shown_settled⟩

theorem backed (h : Grows s s') (hs : Backed inspection s) : Backed inspection s' := by
  intro digest record hentry
  rw [StoreState.entry, h.file] at hentry
  exact (hs digest record hentry).shows h.shown

end Grows

/-! ## One call -/

variable {law : StoreLaw} {α β : Type}

/-- What a program ensures of its outcome and the state after it. -/
abbrev Yields (inspection : String → ImageInspect) (law : StoreLaw)
    (Q : Except ServiceError α → StoreState → Prop) (p : Stored α) (s : StoreState) : Prop :=
  wp (dockerHost inspection law) (fun _ _ _ ↦ True) Q p s

theorem yields_await {Q : Except ServiceError c.Answer → StoreState → Prop}
    (h : ∀ x, law c x s → Q (StoreState.serve inspection c x (s.settled x)).1
      (StoreState.serve inspection c x (s.settled x)).2) :
    Yields inspection law Q (awaitStore c) s :=
  wp_ask.mpr fun x hx ↦ ⟨trivial, h x hx⟩

/-- A call that only reads. -/
def StoreCall.IsReading : StoreCall → Bool
  | .recordStaged _ => false
  | .recordRemoved _ => false
  | .removeImage _ => false
  | _ => true

theorem yields_reading (hc : c.IsReading) :
    Yields inspection law (fun _ s' ↦ Grows s s') (awaitStore c) s := by
  apply yields_await
  intro x _
  have hstate : (StoreState.serve inspection c x (s.settled x)).2 = s.settled x := by
    cases c <;> first | rfl | cases hc
  rw [hstate]
  exact .settled s x

/-- Sequencing of programs that only let the images grow. -/
theorem yields_grows_bind (hp : Yields inspection law (fun _ s' ↦ Grows s s') p s)
    (hf : ∀ a s', Yields inspection law (fun _ s'' ↦ Grows s' s'') (f a) s') :
    Yields inspection law (fun _ s' ↦ Grows s s') (p >>= f) s := by
  apply wp.bind hp
  · intro a s' hgrows
    exact (hf a s').imp fun _ s'' h ↦ hgrows.trans h
  · intro e s' hgrows
    exact hgrows

theorem yields_throwIf {condition : Prop} [Decidable condition] {e : ServiceError} :
    Yields inspection law (fun _ s' ↦ Grows s s') (Program.throwIf condition e) s := by
  apply wp_throwIf.mpr
  split <;> exact .refl s

theorem yields_storeNow : Yields inspection law (fun _ s' ↦ Grows s s') storeNow s := by
  apply yields_grows_bind (yields_reading rfl)
  intro now s'
  apply yields_grows_bind yields_throwIf
  intro _ s''
  exact .refl s''

/-! ## Staging -/

theorem yields_inspectImage :
    Yields inspection law (fun r s' ↦ Grows s s' ∧ ∀ image, r = .ok (some image) →
      reference ∈ s'.shown ∧ image = inspection reference)
      (awaitStore (.inspectImage reference)) s := by
  apply yields_await
  intro x _
  refine ⟨.settled s x, fun image himage ↦ ?_⟩
  have hanswer : x.answer ((s.settled x).inspect inspection reference) = .ok (some image) := himage
  unfold StoreChoice.answer at hanswer
  cases hfailure : x.failure with
  | some e => simp [hfailure] at hanswer
  | none =>
    rw [hfailure] at hanswer
    have hinspect : (s.settled x).inspect inspection reference = some image :=
      Except.ok.inj hanswer
    unfold StoreState.inspect at hinspect
    split at hinspect
    next hshown => exact ⟨hshown, (some.inj hinspect).symm⟩
    next => cases hinspect

/-- A content address under which Docker shows the image of a verified archive. -/
def IsAddress (inspection : String → ImageInspect) (verified : VerifiedOciArchive)
    (reference : String) (s : StoreState) : Prop :=
  ∀ stagedAt, HasImage inspection s (stagedRecord verified reference stagedAt)

theorem IsAddress.grows {verified : VerifiedOciArchive}
    (h : IsAddress inspection verified reference s) (hgrows : Grows s s') :
    IsAddress inspection verified reference s' :=
  fun stagedAt ↦ (h stagedAt).shows hgrows.shown

/-- What the proof of a content address ensures. -/
def Addresses (inspection : String → ImageInspect) (verified : VerifiedOciArchive) (s : StoreState)
    (r : Except ServiceError String) (s' : StoreState) : Prop :=
  Grows s s' ∧ ∀ reference, r = .ok reference → IsAddress inspection verified reference s'

variable {verified : VerifiedOciArchive}

theorem Addresses.of_grows {r : Except ServiceError String} (hgrows : Grows s s')
    (h : Addresses inspection verified s' r s'') : Addresses inspection verified s r s'' :=
  ⟨hgrows.trans h.1, h.2⟩

/-- The inspection that both proofs of a content address begin with. -/
theorem yields_configImage {otherwise : Stored String}
    (h : ∀ s', Yields inspection law (Addresses inspection verified s') otherwise s') :
    Yields inspection law (Addresses inspection verified s)
      (awaitStore (.inspectImage verified.configDigest) >>= fun image ↦
        if isConfigImage verified image then .pure verified.configDigest else otherwise) s := by
  apply wp.bind yields_inspectImage
  · intro image s' ⟨hgrows, hshown⟩
    split
    next hconfig =>
      obtain ⟨found, rfl, hid⟩ := (Option.any_eq_true _ _).mp hconfig
      obtain ⟨hmem, rfl⟩ := hshown found rfl
      refine ⟨hgrows, fun reference hreference stagedAt ↦ ?_⟩
      obtain rfl := Except.ok.inj hreference
      exact ⟨hmem, .inl ⟨rfl, of_decide_eq_true hid⟩⟩
    next => exact (h s').imp fun r s'' hr ↦ hr.of_grows hgrows
  · intro e s' ⟨hgrows, _⟩
    exact ⟨hgrows, nofun⟩

theorem yields_proveContentAddress :
    Yields inspection law (Addresses inspection verified s) (proveContentAddress verified) s := by
  apply yields_configImage
  intro s
  apply wp.bind yields_inspectImage
  · intro image s' ⟨hgrows, hshown⟩
    split
    next hmanifest =>
      obtain ⟨found, rfl, hdescriptor⟩ := Option.bind_eq_some_iff.mp hmanifest
      obtain ⟨hmem, rfl⟩ := hshown found rfl
      refine ⟨hgrows, fun reference hreference stagedAt ↦ ?_⟩
      obtain rfl := Except.ok.inj hreference
      exact ⟨hmem, .inr ⟨rfl, hdescriptor⟩⟩
    next => exact ⟨hgrows, nofun⟩
  · intro e s' ⟨hgrows, _⟩
    exact ⟨hgrows, nofun⟩

theorem yields_loadAndProveContentAddress {path : String} :
    Yields inspection law (Addresses inspection verified s)
      (loadAndProveContentAddress path verified) s := by
  apply yields_configImage
  intro s
  apply wp.bind (yields_reading rfl)
  · intro _ s' hgrows
    exact yields_proveContentAddress.imp fun r s'' hr ↦ hr.of_grows hgrows
  · intro e s' hgrows
    exact ⟨hgrows, nofun⟩

theorem yields_assertFreeSpace {config : StoreConfig} {sizeBytes : Nat} :
    Yields inspection law (fun _ s' ↦ Grows s s') (assertFreeSpace config sizeBytes) s := by
  apply yields_grows_bind
  · apply wp_tryCatch.mpr
    apply (yields_reading rfl).imp
    intro r s' hgrows
    cases r with
    | ok _ => exact hgrows
    | error _ => exact hgrows
  · intro freeBytes s'
    exact yields_throwIf

/-- A new entry has its image, and the others keep theirs. -/
theorem backed_recordStaged (hs : Backed inspection s) (hrecord : HasImage inspection s record) :
    Yields inspection law (fun _ s' ↦ Backed inspection s') (awaitStore (.recordStaged record)) s := by
  apply yields_await
  intro x _
  unfold StoreState.serve
  cases hfailure : x.failure with
  | some e => simpa only [hfailure] using hs.settled
  | none =>
    simp only [hfailure]
    intro digest' record' hentry
    have hput : ((readIndex x.readable s.file).put record.digest record).record digest' =
        some record' := hentry
    rw [StagedArtifactIndex.record_put] at hput
    split at hput
    next => exact some.inj hput ▸ hrecord.shows shown_settled
    next => exact (hs digest' record' (entry_of_readIndex hput)).shows shown_settled

theorem backed_of_grows (hs : Backed inspection s)
    (hp : Yields inspection law (fun _ s' ↦ Grows s s') p s)
    (hf : ∀ a s', Grows s s' → Backed inspection s' →
      Yields inspection law (fun _ s'' ↦ Backed inspection s'') (f a) s') :
    Yields inspection law (fun _ s' ↦ Backed inspection s') (p >>= f) s := by
  apply wp.bind hp
  · intro a s' hgrows
    exact hf a s' hgrows (hgrows.backed hs)
  · intro e s' hgrows
    exact hgrows.backed hs

theorem backed_stage {platform : ArchivePlatform} {config : StoreConfig}
    (hs : Backed inspection s) :
    Yields inspection law (fun _ s' ↦ Backed inspection s') (stage platform config input) s := by
  apply backed_of_grows hs yields_throwIf
  intro _ s _ hs
  apply backed_of_grows hs yields_assertFreeSpace
  intro _ s _ hs
  apply backed_of_grows hs (yields_reading rfl)
  intro bytes s _ hs
  apply backed_of_grows hs (wp_ofExcept.mpr (.refl s))
  intro verified s _ hs
  apply backed_of_grows hs (yields_reading rfl)
  intro existing s _ hs
  cases existing with
  | some existing => exact hs
  | none =>
    apply wp.bind yields_loadAndProveContentAddress
    · intro imageRef s' ⟨hgrows, haddress⟩
      have hs := hgrows.backed hs
      have haddress := haddress imageRef rfl
      apply backed_of_grows hs yields_storeNow
      intro stagedAt s'' hgrows hs
      apply wp.bind (backed_recordStaged hs (haddress.grows hgrows stagedAt))
      · intro _ s hs
        exact hs
      · intro _ s hs
        exact hs
    · intro e s' ⟨hgrows, _⟩
      exact hgrows.backed hs

/-! ## Removing -/

/-- The entries are backed, apart from one that is about to be dropped. -/
def BackedBut (inspection : String → ImageInspect) (digest : String) (s : StoreState) : Prop :=
  ∀ other record, s.entry other = some record → other ≠ digest → HasImage inspection s record

theorem Backed.but (h : Backed inspection s) : BackedBut inspection digest s :=
  fun other record hentry _ ↦ h other record hentry

theorem BackedBut.settled (h : BackedBut inspection digest s) :
    BackedBut inspection digest (s.settled x) :=
  fun other record hentry hne ↦ (h other record hentry hne).shows shown_settled

/-- The others are backed together with the entry itself. -/
theorem BackedBut.backed (h : BackedBut inspection digest s)
    (hdigest : ∀ record, s.entry digest = some record → HasImage inspection s record) :
    Backed inspection s := by
  intro other record hentry
  by_cases hother : other = digest
  · exact hdigest record (hother ▸ hentry)
  · exact h other record hentry hother

/-- The state in a removal of an entry, once the image may be gone. -/
structure Removing (inspection : String → ImageInspect) (digest : String)
    (record : StagedArtifactRecord) (s : StoreState) : Prop where
  entry : s.entry digest = some record
  proven : record.IsProven inspection
  others : BackedBut inspection digest s

theorem Removing.settled (h : Removing inspection digest record s) :
    Removing inspection digest record (s.settled x) :=
  ⟨h.entry, h.proven, h.others.settled⟩

/-- A removal that leaves the image has changed nothing. -/
theorem Removing.backed (h : Removing inspection digest record s)
    (hshown : record.imageRef ∈ s.shown) : Backed inspection s := by
  apply h.others.backed
  intro record' hentry
  obtain rfl := some.inj (h.entry.symm.trans hentry)
  exact ⟨hshown, h.proven⟩

theorem Removing.not_backed (h : Removing inspection digest record s)
    (hgone : record.imageRef ∉ s.shown) : ¬ Backed inspection s :=
  fun hbacked ↦ hgone (hbacked digest record h.entry).shown

theorem removing_removeImage (hs : Backed inspection s) (hentry : s.entry digest = some record) :
    Yields inspection (Tidy inspection)
      (onOutcome (fun _ ↦ Removing inspection digest record) fun _ ↦ Backed inspection)
      (awaitStore (.removeImage record.imageRef)) s := by
  apply yields_await
  intro x hlaw
  have hproven := (hs digest record hentry).proven
  have hshown : record.imageRef ∈ (s.settled x).shown :=
    shown_settled (hs digest record hentry).shown
  by_cases hremoves : x.removes
  · obtain ⟨hfailure, hsole⟩ := hlaw.takesAway _ rfl hremoves hshown
    simp only [StoreState.serve, StoreChoice.answer, hfailure, hremoves, hshown, and_self, if_true,
      Option.elim_none, onOutcome_ok]
    refine ⟨hentry, hproven, fun other record' hentry' hne ↦ ?_⟩
    have himage := hs other record' hentry'
    refine ⟨?_, himage.proven⟩
    apply mem_filter.mpr
    refine ⟨shown_settled himage.shown, decide_eq_true ?_⟩
    intro hid
    exact hne (hsole other digest record' record hentry' hentry hid rfl)
  · have hstate : (StoreState.serve inspection (.removeImage record.imageRef) x
        (s.settled x)).2 = s.settled x := by simp [StoreState.serve, hremoves]
    rw [hstate]
    cases (StoreState.serve inspection (.removeImage record.imageRef) x (s.settled x)).1 with
    | ok _ => exact ⟨hentry, hproven, hs.settled.but⟩
    | error _ => exact hs.settled

theorem removing_inspectImage (h : Removing inspection digest record s) :
    Yields inspection (Tidy inspection)
      (onOutcome (fun image s' ↦ Removing inspection digest record s' ∧
        (image.isSome → Backed inspection s')) fun _ ↦ Backed inspection)
      (awaitStore (.inspectImage record.imageRef)) s := by
  apply yields_await
  intro x hlaw
  have hsettled := h.settled (x := x)
  by_cases hshown : record.imageRef ∈ (s.settled x).shown
  · have hbacked := hsettled.backed hshown
    cases hanswer : (StoreState.serve inspection (.inspectImage record.imageRef) x
        (s.settled x)).1 with
    | ok _ => exact ⟨hsettled, fun _ ↦ hbacked⟩
    | error _ => exact hbacked
  · have hfailure := hlaw.goesOn (hsettled.not_backed hshown) (.inl ⟨_, rfl⟩)
    have hanswer : (StoreState.serve inspection (.inspectImage record.imageRef) x
        (s.settled x)).1 = .ok none := by
      simp [StoreState.serve, StoreChoice.answer, StoreState.inspect, hfailure, hshown]
    rw [hanswer]
    exact ⟨hsettled, nofun⟩

theorem recordRemoved_of_succeeds (hfailure : x.failure = none) : (s.recordRemoved x digest).2 =
    { s with file := some ((readIndex x.readable s.file).drop digest) } := by
  unfold StoreState.recordRemoved
  rw [hfailure]
  dsimp only
  split <;> rfl

/-- Once the entry is dropped, all that are left are backed. -/
theorem BackedBut.recordRemoved (h : BackedBut inspection digest s) (hfailure : x.failure = none) :
    Backed inspection (s.recordRemoved x digest).2 := by
  rw [recordRemoved_of_succeeds hfailure]
  intro other record hentry
  have hdrop : ((readIndex x.readable s.file).drop digest).record other = some record := hentry
  rw [record_drop] at hdrop
  split at hdrop
  next => cases hdrop
  next hne => exact (h other record (entry_of_readIndex hdrop) hne).shows fun _ ↦ id

theorem removing_recordRemoved (h : Removing inspection digest record s) :
    Yields inspection (Tidy inspection) (fun _ s' ↦ Backed inspection s')
      (awaitStore (.recordRemoved digest)) s := by
  apply yields_await
  intro x hlaw
  have hsettled := h.settled (x := x)
  cases hfailure : x.failure with
  | none => exact hsettled.others.recordRemoved hfailure
  | some e =>
    have hstate : ((s.settled x).recordRemoved x digest).2 = s.settled x := by
      unfold StoreState.recordRemoved
      rw [hfailure]
    have hbacked : Backed inspection (s.settled x) := by
      by_contra hnot
      have hnone := hlaw.goesOn hnot (.inr ⟨digest, rfl⟩)
      rw [hfailure] at hnone
      cases hnone
    exact hstate.symm ▸ hbacked

theorem backed_storeNow (hs : Backed inspection s) {f : Int → Stored β}
    (hf : ∀ now s', Backed inspection s' →
      Yields inspection law (fun _ s'' ↦ Backed inspection s'') (f now) s') :
    Yields inspection law (fun _ s' ↦ Backed inspection s') (storeNow >>= f) s :=
  backed_of_grows hs yields_storeNow fun now s' _ ↦ hf now s'

theorem backed_remove (hs : Backed inspection s) :
    Yields inspection (Tidy inspection) (fun _ s' ↦ Backed inspection s') (remove digest) s := by
  have hresolve : Yields inspection (Tidy inspection)
      (fun r s' ↦ Backed inspection s' ∧ ∀ record, r = .ok (some record) →
        s'.entry digest = some record) (awaitStore (.resolve digest)) s := by
    apply yields_await
    intro x _
    refine ⟨hs.settled, fun record hrecord ↦ entry_of_readIndex (Except.ok.inj hrecord)⟩
  apply wp.bind hresolve
  · intro found s ⟨hs, hentry⟩
    cases found with
    | none => exact backed_storeNow hs fun _ _ hs ↦ hs
    | some record =>
      apply wp.bind (removing_removeImage hs (hentry record rfl))
      · intro _ s hremoving
        apply wp.bind (removing_inspectImage hremoving)
        · intro image s ⟨hremoving, hleft⟩
          apply wp_bind.mpr
          apply wp_throwIf.mpr
          split
          next himage => exact hleft himage
          next =>
            apply wp.bind (removing_recordRemoved hremoving)
            · intro _ s hs
              exact backed_storeNow hs fun _ _ hs ↦ hs
            · intro _ s hs
              exact hs
        · intro _ s hs
          exact hs
      · intro _ s hs
        exact hs
  · intro _ s ⟨hs, _⟩
    exact hs

/-! ## All calls -/

variable {platform : ArchivePlatform} {config : StoreConfig}

theorem backed_program (operation : StoreOperation) (hs : Backed inspection s) :
    Yields inspection (Tidy inspection) (fun _ s' ↦ Backed inspection s')
      (operation.program platform config) s := by
  cases operation with
  | stage input =>
    apply wp.bind (backed_stage hs)
    · exact fun _ _ hs ↦ hs
    · exact fun _ _ hs ↦ hs
  | remove digest =>
    apply wp.bind (backed_remove hs)
    · exact fun _ _ hs ↦ hs
    · exact fun _ _ hs ↦ hs

/-- Along every sequence of calls in which removals are tidy, each entry of the index has its image
before and after each call. -/
theorem backed_history {steps : List (HistoryStep StoreOperation ServiceError StoreState)}
    (history : History (dockerHost inspection (Tidy inspection))
      (StoreOperation.program platform config) s steps s')
    (hended : ∀ step ∈ steps, step.outcome ≠ .stopped) (hs : Backed inspection s) :
    (∀ step ∈ steps, Backed inspection step.before ∧ Backed inspection step.after) ∧
      Backed inspection s' := by
  apply history.invariant (C := fun step ↦ step.outcome ≠ .stopped) _ hended hs
  intro step hended execution hbefore
  have hprogram : Yields inspection (Tidy inspection) (fun _ s' ↦ Backed inspection s')
      (step.operation.program platform config) step.before := backed_program step.operation hbefore
  cases houtcome : step.outcome with
  | stopped => exact absurd houtcome hended
  | returned a =>
    rw [houtcome] at execution
    exact execution.post_returned hprogram
  | threw e =>
    rw [houtcome] at execution
    exact execution.post_threw hprogram

end

/-! ## Two archives of one image -/

/-- Everything is allowed. -/
def anyChoice : StoreLaw := fun _ _ _ ↦ True

/-- Docker knows an image by its config alone. -/
def byConfig (reference : String) : ImageInspect := { id := reference }

/-- Nothing fails, apart from writing entries that are not allowed; a loaded archive shows up. -/
def smoothly (disk : String → List UInt8) (freeBytes : Nat) (allowed : String → Bool) :
    StoreCall → StoreState → StoreChoice
  | .statfs, _ => { freeBytes }
  | .readArchive path, _ => { archive := disk path }
  | .recordStaged record, _ =>
    { failure := if allowed record.digest then none else some (.error "EACCES") }
  | .loadArchive _ verified, _ => { gained := [verified.configDigest] }
  | _, _ => {}

section

variable {platform : ArchivePlatform} {config : StoreConfig} {disk : String → List UInt8}
  {freeBytes : Nat} {allowed : String → Bool} {law : StoreLaw} {s : StoreState}

/-- An archive that is accepted and fits. -/
structure Stageable (platform : ArchivePlatform) (config : StoreConfig)
    (disk : String → List UInt8) (freeBytes : Nat) (input : StageInput)
    (verified : VerifiedOciArchive) : Prop where
  accepted : verifyOciArchive platform (disk input.path) input.sha256 input.sizeBytes
    config.maxArtifactBytes = .ok verified
  size : ¬ config.maxArtifactBytes < input.sizeBytes
  space : ¬ freeBytes < input.sizeBytes * config.freeSpaceMultiplier

/-- The state after an archive has been staged. -/
def StoreState.afterStage (s : StoreState) (verified : VerifiedOciArchive) : StoreState where
  file := some ((readIndex true s.file).put verified.artifactDigest
    (stagedRecord verified verified.configDigest 1))
  shown := if verified.configDigest ∈ s.shown then s.shown else s.shown ++ [verified.configDigest]

theorem run_stage {verified : VerifiedOciArchive}
    (h : Stageable platform config disk freeBytes input verified)
    (hallowed : allowed verified.artifactDigest) (hentry : s.entry verified.artifactDigest = none) :
    (dockerHost byConfig law).run (smoothly disk freeBytes allowed)
      ((StoreOperation.stage input).program platform config) s =
        (.ok (), s.afterStage verified) := by
  have hnone : resolve true s.file verified.artifactDigest = none := hentry
  obtain ⟨haccepted, hsize, hspace⟩ := h
  by_cases hshown : verified.configDigest ∈ s.shown
  · simp [StoreOperation.program, stage, assertFreeSpace, Program.throwIf, Program.tryCatch,
      Program.settle, Program.ask, Program.ofExcept, Machine.run, smoothly, dockerHost,
      StoreState.serve, StoreChoice.answer, StoreState.settled, hsize, hspace, haccepted,
      Except.mapError, hnone, loadAndProveContentAddress, StoreState.inspect, hshown,
      isConfigImage, byConfig, storeNow, stagedRecord, hallowed, afterStage]
  · simp [StoreOperation.program, stage, assertFreeSpace, Program.throwIf, Program.tryCatch,
      Program.settle, Program.ask, Program.ofExcept, Machine.run, smoothly, dockerHost,
      StoreState.serve, StoreChoice.answer, StoreState.settled, hsize, hspace, haccepted,
      Except.mapError, hnone, loadAndProveContentAddress, StoreState.inspect, hshown,
      isConfigImage, byConfig, storeNow, stagedRecord, hallowed, afterStage,
      proveContentAddress]

theorem run_remove {digest : String} {record : StagedArtifactRecord}
    (hentry : s.entry digest = some record) (hshown : record.imageRef ∈ s.shown) :
    (dockerHost byConfig law).run (smoothly disk freeBytes allowed)
      ((StoreOperation.remove digest).program platform config) s =
        (.ok (), { file := some ((readIndex true s.file).drop digest)
                   shown := (s.without byConfig record.imageRef).shown }) := by
  have hsome : resolve true s.file digest = some record := hentry
  have hgone : resolve true (some ((readIndex true s.file).drop digest)) digest = none :=
    ((readIndex true s.file).record_drop digest digest).trans (if_pos rfl)
  simp [StoreOperation.program, remove, Program.throwIf, Program.ask, Machine.run, smoothly,
    dockerHost, StoreState.serve, StoreChoice.answer, StoreState.settled, hsome,
    StoreState.inspect, without, hshown, byConfig, StoreState.recordRemoved, hgone,
    storeNow]

/-- Both archives can be staged, and removing one of them takes the image of the other away. -/
theorem shared_image_gone {input' : StageInput} {verified verified' : VerifiedOciArchive}
    (h : Stageable platform config disk freeBytes input verified)
    (h' : Stageable platform config disk freeBytes input' verified')
    (hdigest : verified.artifactDigest ≠ verified'.artifactDigest)
    (hconfig : verified.configDigest = verified'.configDigest) :
    ∃ steps s', History (dockerHost byConfig anyChoice) (StoreOperation.program platform config) {}
        steps s' ∧
      (∀ step ∈ steps, step.outcome = .returned ()) ∧ ¬ Backed byConfig s' := by
  let s₁ : StoreState := afterStage {} verified
  let s₂ : StoreState := s₁.afterStage verified'
  let record := stagedRecord verified verified.configDigest 1
  have hentry₁ : s₁.entry verified'.artifactDigest = none := by
    simp [s₁, StoreState.entry, afterStage, resolve, readIndex, hdigest.symm]
  have hentry₂ : s₂.entry verified.artifactDigest = some record := by
    simp [s₂, s₁, record, StoreState.entry, afterStage, resolve, readIndex, hdigest]
  have hshown₂ : record.imageRef ∈ s₂.shown := by
    simp [s₂, s₁, record, afterStage, stagedRecord, hconfig]
  have hlawful (c : StoreCall) (s : StoreState) : (dockerHost byConfig anyChoice).permits c
      (smoothly disk freeBytes (fun _ ↦ true) c s) s := trivial
  have hstart : History (dockerHost byConfig anyChoice) (StoreOperation.program platform config) {}
      [] {} := .start
  have hfirst := hstart.run hlawful (.stage input)
  rw [run_stage h rfl rfl] at hfirst
  have hsecond := History.run hlawful hfirst (.stage input')
  rw [run_stage h' rfl hentry₁] at hsecond
  have hthird := History.run hlawful hsecond (.remove verified.artifactDigest)
  rw [run_remove hentry₂ hshown₂] at hthird
  refine ⟨_, _, hthird, ?_, fun hbacked ↦ ?_⟩
  · simp [Outcome.ofExcept]
  · have hentry : ({ file := some ((readIndex true s₂.file).drop verified.artifactDigest)
                     shown := (s₂.without byConfig record.imageRef).shown } : StoreState).entry
        verified'.artifactDigest = some (stagedRecord verified' verified'.configDigest 1) := by
      simp [s₂, StoreState.entry, afterStage, resolve, readIndex, hdigest.symm]
    have hshown := (hbacked _ _ hentry).shown
    obtain ⟨-, hother⟩ := mem_filter.mp hshown
    exact of_decide_eq_true hother hconfig.symm

end

namespace Sample

/-- The same image in a file with one more block at its end. -/
def longerArchive : List UInt8 := misnamedArchive ++ List.replicate 512 0

def disk (path : String) : List UInt8 := if path = "a" then misnamedArchive else longerArchive

def first : StageInput := ⟨"a", misnamedDigest, 5120⟩

def second : StageInput :=
  ⟨"b", sha256Digest archivePlatform longerArchive, longerArchive.length⟩

theorem length_longerArchive : longerArchive.length = 5632 := by
  obtain ⟨verified, haccepted, -⟩ := exists_misnamedArchive
  rw [longerArchive, length_append, (length_of_accepted haccepted).1, length_replicate]

theorem digest_longerArchive :
    sha256Digest archivePlatform longerArchive = "sha256:" ++ String.ofList longerHash := by
  simp [sha256Digest, archivePlatform, length_longerArchive]

theorem exists_archives : ∃ verified verified',
    Stageable archivePlatform {} disk 1000000000 first verified ∧
    Stageable archivePlatform {} disk 1000000000 second verified' ∧
    verified.artifactDigest ≠ verified'.artifactDigest ∧
    verified.configDigest = verified'.configDigest := by
  obtain ⟨verified, haccepted, -⟩ := exists_misnamedArchive
  have hlength : (misnamedArchive ++ replicate 512 0).length ≤ 250000000 := by
    rw [← longerArchive, length_longerArchive]
    decide
  have hlonger := verifyOciArchive_append hlength haccepted
  refine ⟨verified, _, ⟨haccepted, by decide, by decide⟩, ⟨hlonger, ?_, ?_⟩, ?_, rfl⟩
  · rw [show second.sizeBytes = 5632 from length_longerArchive]
    decide
  · rw [show second.sizeBytes = 5632 from length_longerArchive]
    decide
  · rw [artifactDigest_of_accepted haccepted]
    rw [← longerArchive, digest_longerArchive]
    have hne : misnamedDigest ≠ "sha256:" ++ String.ofList longerHash := by decide +kernel
    exact hne

end Sample

/-- Even when nothing fails, an entry may lose its image to the removal of another one. -/
theorem not_backed_of_shared : ¬ ∀ platform config inspection steps s',
    History (dockerHost inspection anyChoice) (StoreOperation.program platform config) {} steps s' →
      (∀ step ∈ steps, step.outcome ≠ .stopped) → Backed inspection s' := by
  intro hclaim
  obtain ⟨verified, verified', h, h', hdigest, hconfig⟩ := Sample.exists_archives
  obtain ⟨steps, s', history, hreturned, hnot⟩ := shared_image_gone h h' hdigest hconfig
  apply hnot
  apply hclaim _ _ _ _ _ history
  intro step hstep
  rw [hreturned step hstep]
  nofun

section

variable {platform : ArchivePlatform} {config : StoreConfig} {disk : String → List UInt8}
  {freeBytes : Nat}

/-- No digest is staged but one. -/
def Only (digest : String) (s : StoreState) : Prop :=
  ∀ other record, s.entry other = some record → other = digest

theorem Only.sole {digest : String} {s : StoreState} (h : Only digest s) :
    Sole byConfig s reference :=
  fun _ _ _ _ hentry hentry' _ _ ↦ (h _ _ hentry).trans (h _ _ hentry').symm

theorem smoothly_tidy {digest : String} {s : StoreState} (h : Only digest s) (c : StoreCall) :
    Tidy byConfig c (smoothly disk freeBytes (· = digest) c s) s := by
  constructor
  · rintro reference rfl - -
    exact ⟨rfl, h.sole⟩
  · rintro - (⟨reference, rfl⟩ | ⟨digest', rfl⟩) <;> rfl

theorem Only.keeps {digest : String} {s : StoreState} (h : Only digest s) (c : StoreCall) :
    Only digest ((dockerHost byConfig (Tidy byConfig)).respond c
      (smoothly disk freeBytes (· = digest) c s) s).2 := by
  cases c with
  | recordStaged record =>
    by_cases hdigest : record.digest = digest
    · intro other record' hentry
      have hput : ((readIndex true s.file).put record.digest record).record other =
          some record' := by
        simpa [dockerHost, smoothly, StoreState.serve, hdigest, StoreState.entry, resolve,
          readIndex, StoreState.settled] using hentry
      rw [StagedArtifactIndex.record_put] at hput
      split at hput
      next hother => exact hother.trans hdigest
      next => exact h _ _ hput
    · have hsettled : Only digest (s.settled { failure := some (.error "EACCES") }) := h
      simpa [dockerHost, smoothly, StoreState.serve, hdigest] using hsettled
  | recordRemoved removed =>
    intro other record' hentry
    have hentry' : ((s.settled {}).recordRemoved {} removed).2.entry other = some record' := hentry
    rw [recordRemoved_of_succeeds rfl] at hentry'
    have hdrop : ((readIndex true s.file).drop removed).record other = some record' := hentry'
    rw [record_drop] at hdrop
    split at hdrop
    next => cases hdrop
    next => exact h _ _ hdrop
  | removeImage reference =>
    intro other record' hentry
    apply h other record'
    have hfile : ((dockerHost byConfig (Tidy byConfig)).respond (.removeImage reference)
        (smoothly disk freeBytes (· = digest) (.removeImage reference) s) s).2.file = s.file := by
      simp only [dockerHost, StoreState.serve]
      split <;> rfl
    rw [StoreState.entry, hfile] at hentry
    exact hentry
  | _ => exact h

/-- An archive is staged and removed again. -/
theorem tidy_history {verified : VerifiedOciArchive}
    (h : Stageable platform config disk freeBytes input verified) :
    ∃ steps s', steps.length = 2 ∧ History (dockerHost byConfig (Tidy byConfig))
        (StoreOperation.program platform config) {} steps s' ∧
      ∀ step ∈ steps, step.outcome = .returned () := by
  let digest := verified.artifactDigest
  let record := stagedRecord verified verified.configDigest 1
  let s₁ : StoreState := afterStage {} verified
  have hentry : s₁.entry digest = some record := by
    simp [s₁, digest, record, StoreState.entry, afterStage, resolve, readIndex]
  have hshown : record.imageRef ∈ s₁.shown := by
    simp [s₁, record, afterStage, stagedRecord]
  have honly : Only digest s₁ := by
    intro other record' hentry'
    by_contra hne
    simp [s₁, digest, StoreState.entry, afterStage, resolve, readIndex, hne] at hentry'
  have hkeeps (c : StoreCall) (s : StoreState) (hs : Only digest s) :
      Only digest ((dockerHost byConfig (Tidy byConfig)).respond c
        (smoothly disk freeBytes (· = digest) c s) s).2 := hs.keeps c
  have hexecutes (operation : StoreOperation) {s : StoreState} (hs : Only digest s) :
      Executes (dockerHost byConfig (Tidy byConfig)) (operation.program platform config) s
        (.ofExcept ((dockerHost byConfig (Tidy byConfig)).run
          (smoothly disk freeBytes (· = digest)) (operation.program platform config) s).1)
        ((dockerHost byConfig (Tidy byConfig)).run
          (smoothly disk freeBytes (· = digest)) (operation.program platform config) s).2 :=
    Machine.executes_run_under (I := Only digest) (fun c _ h ↦ smoothly_tidy h c) hkeeps hs
  have hstage := hexecutes (.stage input) (s := {}) nofun
  rw [run_stage h (decide_eq_true rfl) rfl] at hstage
  have hremove := hexecutes (.remove digest) honly
  rw [run_remove hentry hshown] at hremove
  have hfirst : History _ (StoreOperation.program platform config) {} _ s₁ := .step .start hstage
  refine ⟨_, _, ?_, .step hfirst hremove, ?_⟩
  · rfl
  · simp [Outcome.ofExcept]

end

theorem backed_history_stage_remove : ∃ steps s', steps.length = 2 ∧
    History (dockerHost byConfig (Tidy byConfig))
      (StoreOperation.program Sample.archivePlatform {}) {} steps s' ∧
    ((∀ step ∈ steps, Backed byConfig step.before ∧ Backed byConfig step.after) ∧
      Backed byConfig s') := by
  obtain ⟨verified, -, h, -⟩ := Sample.exists_archives
  obtain ⟨steps, s', hlength, history, hreturned⟩ := tidy_history h
  refine ⟨steps, s', hlength, history, backed_history history ?_ nofun⟩
  intro step hstep
  rw [hreturned step hstep]
  nofun

end PrivosCluster.LocalRuntime
