import Mathlib.Data.List.Dedup
import Mathlib.Data.List.Perm.Subperm
import PrivosCluster.LocalRuntime.OciArchive

/-!
# What an accepted archive is

The tar file is read again, by its format alone: a header at every entry, the data after it, and
the end marker. An accepted archive holds the files that its index and its manifest name, and no
others, as long as no header names a file like a directory.
-/

namespace PrivosCluster.LocalRuntime

open List Option

/-! ## The tar file -/

/-- An entry with the name that is written in its header. -/
structure TarEntry where
  name : String
  typeflag : Char
  size : Nat
  dataOffset : Nat

/-- A regular file, by the flag of its header. -/
def TarEntry.IsRegular (entry : TarEntry) : Prop :=
  entry.typeflag = '0' ∨ entry.typeflag = Char.ofNat 0

instance (entry : TarEntry) : Decidable entry.IsRegular := inferInstanceAs (Decidable (_ ∨ _))

def TarEntry.content (bytes : List UInt8) (entry : TarEntry) : List UInt8 :=
  subarray bytes entry.dataOffset (entry.dataOffset + entry.size)

/-- The entries from some header on, up to the end marker. -/
inductive TarEntries (platform : ArchivePlatform) (bytes : List UInt8) :
    Nat → List TarEntry → Nat → Prop
  | marker {offset : Nat} (block : (subarray bytes offset (offset + BLOCK)).length = BLOCK)
      (zero : ∀ b ∈ subarray bytes offset (offset + BLOCK), b = 0) :
    TarEntries platform bytes offset [] offset
  | entry {offset size stop : Nat} {entries : List TarEntry} (header : List UInt8)
      (read : header = subarray bytes offset (offset + BLOCK)) (block : header.length = BLOCK)
      (content : ∃ b ∈ header, b ≠ 0) (length : headerSize header = .ok size)
      (rest : TarEntries platform bytes (nextOffset (offset + BLOCK) size) entries stop) :
    TarEntries platform bytes offset
      ({ name := headerName platform header
         typeflag := headerTypeflag header
         size
         dataOffset := offset + BLOCK } :: entries) stop

/-- The member that the catalog makes of an entry. -/
def TarEntry.member (entry : TarEntry) : TarMember where
  name := memberName entry.name
  size := entry.size
  isFile := decide entry.IsRegular
  isDir := decide (entry.typeflag = '5' ∨ entry.name.toList.getLast? = some '/')
  dataOffset := entry.dataOffset

@[simp] theorem TarEntry.member_name (entry : TarEntry) :
    entry.member.name = memberName entry.name := by
  simp only [TarEntry.member]

/-! ## Steps that do not throw -/

section

variable {α β : Type} {condition : Prop} [Decidable condition] {message : String}

theorem bind_eq_ok {x : Except ArchiveError α} {f : α → Except ArchiveError β} {r : β} :
    (x >>= f) = .ok r ↔ ∃ a, x = .ok a ∧ f a = .ok r := by
  cases x with
  | error => simp [bind, Except.bind]
  | ok a => simp [bind, Except.bind]

theorem refuse_eq_ok : refuse condition message = .ok () ↔ ¬ condition := by
  unfold refuse
  split
  next h => simp [h]
  next h => simp [h]

theorem refuse_bind {next : Unit → Except ArchiveError β} {r : β} :
    (refuse condition message >>= next) = .ok r ↔ ¬ condition ∧ next () = .ok r := by
  rw [bind_eq_ok]
  constructor
  · rintro ⟨⟨⟩, hrefuse, hnext⟩
    exact ⟨refuse_eq_ok.mp hrefuse, hnext⟩
  · rintro ⟨hcondition, hnext⟩
    exact ⟨(), refuse_eq_ok.mpr hcondition, hnext⟩

end

variable {count dataEnd : Nat} {value : Json} {descriptor : Descriptor} {name missing : String}

section

variable {platform : ArchivePlatform} {bytes : List UInt8}

/-! ## The catalog -/

variable {maxBytes : Nat}

theorem tarMember_eq_ok {dataOffset : Nat} {header : List UInt8} {member : TarMember}
    (h : tarMember platform maxBytes count header dataOffset = .ok member) :
    ∃ size, headerSize header = .ok size ∧ member = TarEntry.member
      { name := headerName platform header
        typeflag := headerTypeflag header
        size
        dataOffset } := by
  unfold tarMember at h
  simp only [↓refuse_bind, bind_eq_ok] at h
  obtain ⟨-, -, size, hsize, -, -, -, -, hmember⟩ := h
  exact ⟨size, hsize, (Except.ok.inj hmember).symm⟩

variable {offset : Nat} {members : List TarMember}

/-- The catalog lists the entries of the file. -/
theorem catalogFrom_eq_ok {fuel : Nat}
    (h : catalogFrom platform bytes maxBytes fuel offset count = .ok (members, dataEnd)) :
    ∃ entries, TarEntries platform bytes offset entries dataEnd ∧
      members = entries.map TarEntry.member := by
  induction fuel generalizing offset count members with
  | zero => cases h
  | succ fuel ih =>
    unfold catalogFrom at h
    split at h
    · cases h
    dsimp only at h
    split at h
    · cases h
    next hblock =>
      split at h
      next hzero =>
        cases h
        refine ⟨[], .marker (not_not.mp hblock) fun b hb ↦ ?_, rfl⟩
        exact of_decide_eq_true (List.all_eq_true.mp hzero b hb)
      next hcontent =>
        simp only [bind_eq_ok] at h
        obtain ⟨member, hmember, ⟨rest, stop⟩, hrest, hresult⟩ := h
        cases hresult
        obtain ⟨size, hsize, rfl⟩ := tarMember_eq_ok hmember
        obtain ⟨entries, hentries, rfl⟩ := ih hrest
        refine ⟨_ :: entries, .entry _ rfl (not_not.mp hblock) ?_ hsize hentries, rfl⟩
        by_contra hnone
        push Not at hnone
        exact hcontent (List.all_eq_true.mpr fun b hb ↦ decide_eq_true (hnone b hb))

variable {stop : Nat}

/-- The entries are those of the file: there is only one way to read it. -/
theorem TarEntries.unique {stop' : Nat} {entries entries' : List TarEntry}
    (h : TarEntries platform bytes offset entries stop)
    (h' : TarEntries platform bytes offset entries' stop') : entries = entries' ∧ stop = stop' := by
  induction h generalizing entries' with
  | marker _ hzero =>
    cases h' with
    | marker => exact ⟨rfl, rfl⟩
    | entry header hread _ hcontent =>
      obtain ⟨b, hb, hne⟩ := hcontent
      exact absurd (hzero b (hread ▸ hb)) hne
  | entry header hread _ hcontent hsize _ ih =>
    cases h' with
    | marker _ hzero =>
      obtain ⟨b, hb, hne⟩ := hcontent
      exact absurd (hzero b (hread ▸ hb)) hne
    | entry header' hread' _ _ hsize' hrest' =>
      obtain rfl := hread.trans hread'.symm
      obtain rfl := Except.ok.inj (hsize.symm.trans hsize')
      obtain ⟨rfl, rfl⟩ := ih hrest'
      exact ⟨rfl, rfl⟩

theorem le_nextOffset (dataOffset size : Nat) : dataOffset + size ≤ nextOffset dataOffset size := by
  unfold nextOffset BLOCK
  omega

/-- All entries lie before the end marker, and that lies in the file. -/
theorem TarEntries.inside {entries : List TarEntry}
    (h : TarEntries platform bytes offset entries stop) :
    offset ≤ stop ∧ stop + BLOCK ≤ bytes.length ∧
      ∀ entry ∈ entries, entry.dataOffset + entry.size ≤ stop := by
  induction h with
  | @marker offset hblock =>
    refine ⟨le_rfl, ?_, nofun⟩
    simp only [subarray, length_take, length_drop, BLOCK] at hblock ⊢
    omega
  | @entry offset size stop entries header _ _ _ _ _ ih =>
    obtain ⟨hstop, hlength, hinside⟩ := ih
    have hnext := le_nextOffset (offset + BLOCK) size
    refine ⟨by omega, hlength, ?_⟩
    intro entry hmem
    obtain rfl | hmem := mem_cons.mp hmem
    · exact hnext.trans hstop
    · exact hinside entry hmem

/-! ## Descriptors and blobs -/

/-- A JSON value that states a descriptor. -/
def Describes (value : Json) (descriptor : Descriptor) : Prop :=
  ∃ record, value = .obj record ∧ record.lookup "mediaType" = some (.str descriptor.mediaType) ∧
    record.lookup "digest" = some (.str descriptor.digest) ∧
    record.lookup "size" = some (.num descriptor.size)

theorem natural?_eq_some {n : Nat} : natural? value = some n ↔ value = .num n := by
  constructor
  · intro h
    unfold natural? at h
    split at h
    next m =>
      split at h
      next hm =>
        obtain ⟨hden, hnonneg⟩ := hm
        obtain rfl := some.inj h
        have hnum : (m.num.toNat : Int) = m.num := Int.toNat_of_nonneg (Rat.num_nonneg.mpr hnonneg)
        congr 1
        calc m
          _ = (m.num : Rat) := ((Rat.den_eq_one_iff m).mp hden).symm
          _ = ((m.num.toNat : Int) : Rat) := by rw [hnum]
          _ = (m.num.toNat : Rat) := Int.cast_natCast _
      · cases h
    · cases h
  · rintro rfl
    have hnonneg : (0 : Rat) ≤ n := Rat.num_nonneg.mp (by simp)
    simp [natural?, hnonneg]

theorem describes_of_assertDescriptor {allowed : List String}
    (h : assertDescriptor value allowed = .ok descriptor) :
    Describes value descriptor ∧ Schema.isDigest descriptor.digest := by
  unfold assertDescriptor at h
  split at h
  next record =>
    rw [refuse_bind] at h
    obtain ⟨-, h⟩ := h
    split at h
    next mediaType hmediaType =>
      rw [refuse_bind] at h
      obtain ⟨-, h⟩ := h
      split at h
      next digest hdigest =>
        rw [refuse_bind] at h
        obtain ⟨hvalid, h⟩ := h
        split at h
        next size hsize =>
          cases h
          obtain ⟨sizeValue, hlookup, hnatural⟩ := Option.bind_eq_some_iff.mp hsize
          rw [natural?_eq_some.mp hnatural] at hlookup
          exact ⟨⟨record, rfl, hmediaType, hdigest, hlookup⟩, by simpa using hvalid⟩
        · cases h
      · cases h
    · cases h
  · cases h
  · cases h

theorem describes_of_assertLayers {values : List Json} {layers : List Descriptor}
    (h : assertLayers values = .ok layers) :
    List.Forall₂ Describes values layers ∧ ∀ layer ∈ layers, Schema.isDigest layer.digest := by
  induction values generalizing layers with
  | nil =>
    cases h
    exact ⟨.nil, nofun⟩
  | cons value values ih =>
    simp only [assertLayers, bind_eq_ok] at h
    obtain ⟨descriptor, hdescriptor, rest, hrest, hresult⟩ := h
    cases hresult
    obtain ⟨hdescribes, hdigest⟩ := describes_of_assertDescriptor hdescriptor
    obtain ⟨hall, hdigests⟩ := ih hrest
    exact ⟨.cons hdescribes hall, forall_mem_cons.mpr ⟨hdigest, hdigests⟩⟩

theorem requireFile_eq_ok {message : String} {member : TarMember}
    (h : requireFile members name message = .ok member) :
    member ∈ members ∧ member.name = name ∧ member.isFile := by
  unfold requireFile at h
  split at h
  next found hfound =>
    cases h
    obtain ⟨hfind, hfile⟩ := Option.filter_eq_some_iff.mp hfound
    exact ⟨mem_of_find?_eq_some hfind, by simpa using find?_some hfind, hfile⟩
  · cases h

/-- A member with the content that its descriptor states. -/
def IsBlob (platform : ArchivePlatform) (bytes : List UInt8) (descriptor : Descriptor)
    (member : TarMember) : Prop :=
  member.size = descriptor.size ∧ sha256Digest platform (memberBytes bytes member) = descriptor.digest

theorem verifyBlob_eq_ok {member : TarMember}
    (h : verifyBlob platform bytes members descriptor missing = .ok member) :
    member ∈ members ∧ member.name = blobMemberName descriptor.digest ∧ member.isFile ∧
      IsBlob platform bytes descriptor member := by
  simp only [verifyBlob, bind_eq_ok] at h
  obtain ⟨found, hfound, _, hdigest, hresult⟩ := h
  cases hresult
  obtain ⟨hmem, hname, hfile⟩ := requireFile_eq_ok hfound
  rw [verifyMemberDigest, refuse_bind, refuse_eq_ok] at hdigest
  exact ⟨hmem, hname, hfile, not_not.mp hdigest.1, not_not.mp hdigest.2⟩

theorem verifyLayers_eq_ok {layers : List Descriptor}
    (h : verifyLayers platform bytes members layers = .ok ()) :
    ∀ layer ∈ layers, ∃ member ∈ members, member.name = blobMemberName layer.digest ∧
      member.isFile ∧ IsBlob platform bytes layer member := by
  induction layers with
  | nil => nofun
  | cons layer layers ih =>
    simp only [verifyLayers, bind_eq_ok] at h
    obtain ⟨member, hmember, hrest⟩ := h
    exact forall_mem_cons.mpr ⟨⟨member, verifyBlob_eq_ok hmember⟩, ih hrest⟩

theorem indexManifest_eq_ok {index manifest : Json} (h : indexManifest index = .ok manifest) :
    ∃ record, index = .obj record ∧ record.lookup "manifests" = some (.arr [manifest]) := by
  unfold indexManifest at h
  split at h
  next record =>
    rw [refuse_bind] at h
    obtain ⟨-, h⟩ := h
    split at h
    next hmanifests =>
      rw [refuse_bind] at h
      cases h.2
      exact ⟨record, rfl, hmanifests⟩
    · cases h
  · cases h

theorem manifestParts_eq_ok {manifest config : Json} {layers : List Json}
    (h : manifestParts manifest = .ok (config, layers)) :
    ∃ record, manifest = .obj record ∧ record.lookup "config" = some config ∧
      record.lookup "layers" = some (.arr layers) := by
  unfold manifestParts at h
  split at h
  next record =>
    rw [refuse_bind] at h
    obtain ⟨-, h⟩ := h
    split at h
    · cases h
    next hconfig =>
      rw [refuse_bind] at h
      obtain ⟨-, h⟩ := h
      split at h
      next hlayers =>
        rw [refuse_bind] at h
        cases h.2
        exact ⟨record, rfl, hconfig, hlayers⟩
      · cases h
  · cases h
  · cases h

/-! ## The whole archive -/

/-- The descriptors that are reached from `index.json`. -/
structure Reached (platform : ArchivePlatform) (bytes : List UInt8) (files : List TarEntry)
    (manifest config : Descriptor) (layers : List Descriptor) : Prop where
  index : ∃ file ∈ files, file.name = "index.json" ∧ ∃ record value,
    Json.parse platform.number (platform.text (file.content bytes)) = some (.obj record) ∧
    record.lookup "manifests" = some (.arr [value]) ∧ Describes value manifest
  parts : ∃ file ∈ files, file.name = blobMemberName manifest.digest ∧ ∃ record value values,
    Json.parse platform.number (platform.text (file.content bytes)) = some (.obj record) ∧
    record.lookup "config" = some value ∧ Describes value config ∧
    record.lookup "layers" = some (.arr values) ∧ List.Forall₂ Describes values layers

/-- The regular files of the archive are, by the names in their headers, the files that the index
and the manifest name, with the content that the descriptors state. -/
structure IsArchiveOf (platform : ArchivePlatform) (bytes : List UInt8) (entries : List TarEntry)
    (manifest config : Descriptor) (layers : List Descriptor) (verified : VerifiedOciArchive) :
    Prop where
  tar : TarEntries platform bytes 0 entries verified.archiveDataEnd
  nodup : ((entries.filter (·.IsRegular)).map (·.name)).Nodup
  names : ∀ name, name ∈ (entries.filter (·.IsRegular)).map (·.name) ↔
    name ∈ expectedFiles manifest config layers
  reached : Reached platform bytes (entries.filter (·.IsRegular)) manifest config layers
  blobs : ∀ descriptor ∈ manifest :: config :: layers,
    ∃ file ∈ entries.filter (·.IsRegular), file.name = blobMemberName descriptor.digest ∧
      (file.content bytes).length = descriptor.size ∧
      sha256Digest platform (file.content bytes) = descriptor.digest
  manifestDigest : verified.manifestDigest = manifest.digest
  configDigest : verified.configDigest = config.digest
  layerDigests : verified.layerDigests = layers.map (·.digest)
  inside : ∀ entry ∈ entries, entry.dataOffset + entry.size ≤ verified.archiveDataEnd
  complete : verified.archiveDataEnd ≤ bytes.length

def IsSound (platform : ArchivePlatform) (bytes : List UInt8) (verified : VerifiedOciArchive) :
    Prop :=
  ∃ entries manifest config layers,
    IsArchiveOf platform bytes entries manifest config layers verified

/-- A regular file whose name is written like that of a directory. -/
def TarEntry.IsMisnamed (entry : TarEntry) : Prop :=
  entry.IsRegular ∧ entry.name.toList.getLast? = some '/'

/-! ### Names -/

theorem memberName_of_getLast? (h : name.toList.getLast? ≠ some '/') : memberName name = name := by
  have hkeep : name.toList.rdropWhile (· = '/') = name.toList := by
    rw [rdropWhile_eq_self_iff]
    intro hne
    have hlast := getLast?_eq_getLast_of_ne_nil hne
    rw [hlast] at h
    simpa using h
  unfold memberName
  rw [hkeep]
  simp

theorem getLast?_blobMemberName {digest : String} (h : Schema.isDigest digest) :
    (blobMemberName digest).toList.getLast? ≠ some '/' := by
  simp only [Schema.isDigest, Bool.and_eq_true, beq_iff_eq] at h
  obtain ⟨⟨-, hlength⟩, hhex⟩ := h
  have hdrop : (String.ofList (digest.toList.drop 7)).toList = digest.toList.drop 7 :=
    String.toList_ofList
  unfold blobMemberName
  rw [String.toList_append, hdrop, getLast?_append]
  intro hslash
  have hne : digest.toList.drop 7 ≠ [] := by
    intro hnil
    rw [hnil] at hlength
    cases hlength
  rw [getLast?_eq_getLast_of_ne_nil hne] at hslash
  have hmem := getLast_mem hne
  rw [some.inj hslash] at hmem
  have hlower := List.all_eq_true.mp hhex _ hmem
  revert hlower
  decide

/-! ### Acceptance -/

/-- What the checks of an accepted archive have found. -/
structure Checked (platform : ArchivePlatform) (bytes : List UInt8) (members : List TarMember)
    (manifest config : Descriptor) (layers : List Descriptor) : Prop where
  nodup : (members.map (·.name)).Nodup
  indexFile : ∃ member ∈ members, member.name = "index.json" ∧ member.isFile = true ∧
    ∃ record value, Json.parse platform.number (platform.text (memberBytes bytes member)) =
      some (.obj record) ∧ record.lookup "manifests" = some (.arr [value]) ∧
      Describes value manifest
  manifestBlob : ∃ member ∈ members, member.name = blobMemberName manifest.digest ∧
    member.isFile = true ∧ IsBlob platform bytes manifest member ∧
    ∃ record value values, Json.parse platform.number
      (platform.text (memberBytes bytes member)) = some (.obj record) ∧
      record.lookup "config" = some value ∧ Describes value config ∧
      record.lookup "layers" = some (.arr values) ∧ List.Forall₂ Describes values layers
  configBlob : ∃ member ∈ members, member.name = blobMemberName config.digest ∧
    member.isFile = true ∧ IsBlob platform bytes config member
  layerBlobs : ∀ layer ∈ layers, ∃ member ∈ members, member.name = blobMemberName layer.digest ∧
    member.isFile = true ∧ IsBlob platform bytes layer member
  digests : ∀ descriptor ∈ manifest :: config :: layers, Schema.isDigest descriptor.digest = true
  files : ∀ name, name ∈ actualFiles members ↔ name ∈ expectedFiles manifest config layers

theorem parse_of_read {member : TarMember} {content : List UInt8}
    (hread : readMemberBytes bytes member MAX_METADATA_BYTES = .ok content)
    (hparse : parseStrictJson platform content = .ok value) :
    Json.parse platform.number (platform.text (memberBytes bytes member)) = some value := by
  simp only [readMemberBytes, refuse_bind] at hread
  cases hread.2.2
  unfold parseStrictJson at hparse
  split at hparse
  next found hfound =>
    cases hparse
    exact hfound
  · cases hparse

/-- Sets of the same size, of which one contains the other, are equal. -/
theorem mem_iff_of_dedup {actual expected : List String}
    (hlength : actual.dedup.length = expected.dedup.length)
    (hsub : ∀ name ∈ expected, name ∈ actual) (name : String) :
    name ∈ actual ↔ name ∈ expected := by
  constructor
  · intro hmem
    have hsubset : expected.dedup ⊆ actual.dedup := fun other hother ↦
      mem_dedup.mpr (hsub other (mem_dedup.mp hother))
    have hperm := (expected.nodup_dedup.subperm hsubset).perm_of_length_le hlength.le
    exact mem_dedup.mp (hperm.mem_iff.mpr (mem_dedup.mpr hmem))
  · exact hsub name

variable {expectedDigest : String} {size : Nat} {verified : VerifiedOciArchive}

/-- An accepted archive has passed all checks. -/
theorem verifyOciArchive_eq_ok
    (h : verifyOciArchive platform bytes expectedDigest size maxBytes = .ok verified) :
    ∃ members manifest config layers,
      catalogTarMembers platform bytes maxBytes = .ok (members, verified.archiveDataEnd) ∧
      Checked platform bytes members manifest config layers ∧
      verified.manifestDigest = manifest.digest ∧ verified.configDigest = config.digest ∧
      verified.layerDigests = layers.map (·.digest) ∧ verified.artifactDigest = expectedDigest := by
  unfold verifyOciArchive at h
  simp only [↓refuse_bind, bind_eq_ok] at h
  obtain ⟨-, -, ⟨members, dataEnd⟩, hcatalog, hnodup, layoutMember, -, indexMember, hindexMember,
    layoutBytes, -, layout, -, -, indexBytes, hindexBytes, index, hindex, manifestValue,
    hmanifestValue, manifest, hmanifest, manifestMember, hmanifestMember, manifestBytes,
    hmanifestBytes, manifestJson, hmanifestJson, ⟨configValue, layerValues⟩, hparts, config,
    hconfig, layers, hlayers, -, configMember, hconfigMember, configBytes, -, imageConfig, -,
    ⟨⟩, hverified, hfiles, hresult⟩ := h
  obtain rfl := Except.ok.inj hresult
  obtain ⟨hindexMem, hindexName, hindexFile⟩ := requireFile_eq_ok hindexMember
  obtain ⟨hmanifestMem, hmanifestName, hmanifestFile, hmanifestBlob⟩ :=
    verifyBlob_eq_ok hmanifestMember
  obtain ⟨hmanifestDescribes, hmanifestDigest⟩ := describes_of_assertDescriptor hmanifest
  obtain ⟨hconfigDescribes, hconfigDigest⟩ := describes_of_assertDescriptor hconfig
  obtain ⟨hlayersDescribe, hlayerDigests⟩ := describes_of_assertLayers hlayers
  obtain ⟨record, rfl, hmanifests⟩ := indexManifest_eq_ok hmanifestValue
  obtain ⟨parts, rfl, hconfigValue, hlayerValues⟩ := manifestParts_eq_ok hparts
  push Not at hfiles
  refine ⟨members, manifest, config, layers, hcatalog, ⟨not_not.mp hnodup, ?_, ?_, ?_, ?_, ?_, ?_⟩,
    rfl, rfl, rfl, rfl⟩
  · exact ⟨indexMember, hindexMem, hindexName, hindexFile, record, manifestValue,
      parse_of_read hindexBytes hindex, hmanifests, hmanifestDescribes⟩
  · exact ⟨manifestMember, hmanifestMem, hmanifestName, hmanifestFile, hmanifestBlob, parts,
      configValue, layerValues, parse_of_read hmanifestBytes hmanifestJson, hconfigValue,
      hconfigDescribes, hlayerValues, hlayersDescribe⟩
  · exact ⟨configMember, verifyBlob_eq_ok hconfigMember⟩
  · exact verifyLayers_eq_ok hverified
  · exact forall_mem_cons.mpr ⟨hmanifestDigest,
      forall_mem_cons.mpr ⟨hconfigDigest, hlayerDigests⟩⟩
  · exact mem_iff_of_dedup hfiles.1 hfiles.2

/-! ### What follows the end marker -/

theorem subarray_append {extra : List UInt8} {start : Nat} (h : stop ≤ bytes.length) :
    subarray (bytes ++ extra) start stop = subarray bytes start stop := by
  unfold subarray
  obtain hstart | hstart := Nat.le_total start bytes.length
  · rw [drop_append_of_le_length hstart, take_append_of_le_length]
    rw [length_drop]
    omega
  · have hempty : stop - start = 0 := by omega
    rw [hempty, take_zero, take_zero]

theorem catalogFrom_append {extra : List UInt8} {fuel fuel' : Nat} (hfuel : fuel ≤ fuel')
    (h : catalogFrom platform bytes maxBytes fuel offset count = .ok (members, dataEnd)) :
    catalogFrom platform (bytes ++ extra) maxBytes fuel' offset count = .ok (members, dataEnd) := by
  induction fuel generalizing fuel' offset count members dataEnd with
  | zero => cases h
  | succ fuel ih =>
    obtain ⟨fuel', rfl⟩ := Nat.exists_eq_add_of_le' (Nat.lt_of_lt_of_le (Nat.succ_pos fuel) hfuel)
    unfold catalogFrom at h ⊢
    split at h
    · cases h
    next hoffset =>
      dsimp only at h ⊢
      split at h
      · cases h
      next hblock =>
        have hblock := not_not.mp hblock
        have hinside : offset + BLOCK ≤ bytes.length := by
          have hlength := hblock
          simp only [subarray, length_take, length_drop, BLOCK] at hlength ⊢
          omega
        have hlonger : ¬ (bytes ++ extra).length ≤ offset := by
          rw [length_append]
          omega
        rw [if_neg hlonger, subarray_append hinside, if_neg (not_not.mpr hblock)]
        split at h
        next hzero => rw [if_pos hzero, h]
        next hcontent =>
          rw [if_neg hcontent]
          simp only [bind_eq_ok] at h ⊢
          obtain ⟨member, hmember, ⟨rest, stop⟩, hrest, hresult⟩ := h
          exact ⟨member, hmember, ⟨rest, stop⟩, ih (Nat.le_of_succ_le_succ hfuel) hrest, hresult⟩

section

variable {extra : List UInt8} {members : List TarMember}

/-- The members lie in the bytes. -/
def Inside (bytes : List UInt8) (members : List TarMember) : Prop :=
  ∀ member ∈ members, member.dataOffset + member.size ≤ bytes.length

theorem inside_of_catalog {maxBytes : Nat}
    (h : catalogTarMembers platform bytes maxBytes = .ok (members, dataEnd)) :
    Inside bytes members := by
  obtain ⟨entries, htar, rfl⟩ := catalogFrom_eq_ok h
  obtain ⟨-, hlength, hinside⟩ := htar.inside
  intro member hmem
  obtain ⟨entry, hentry, rfl⟩ := List.mem_map.mp hmem
  have hend : entry.member.dataOffset + entry.member.size ≤ dataEnd := hinside entry hentry
  omega

theorem memberBytes_append (hinside : Inside bytes members) {member : TarMember}
    (hmem : member ∈ members) : memberBytes (bytes ++ extra) member = memberBytes bytes member :=
  subarray_append (hinside member hmem)

theorem readMemberBytes_append (hinside : Inside bytes members) {member : TarMember}
    (hmem : member ∈ members) {limit : Nat} :
    readMemberBytes (bytes ++ extra) member limit = readMemberBytes bytes member limit := by
  unfold readMemberBytes
  rw [memberBytes_append hinside hmem]

theorem verifyBlob_append (hinside : Inside bytes members) {member : TarMember}
    (h : verifyBlob platform bytes members descriptor missing = .ok member) :
    verifyBlob platform (bytes ++ extra) members descriptor missing = .ok member := by
  simp only [verifyBlob, bind_eq_ok] at h ⊢
  obtain ⟨found, hfound, ⟨⟩, hdigest, hresult⟩ := h
  refine ⟨found, hfound, (), ?_, hresult⟩
  unfold verifyMemberDigest at hdigest ⊢
  rw [memberBytes_append hinside (requireFile_eq_ok hfound).1]
  exact hdigest

theorem verifyLayers_append (hinside : Inside bytes members) {layers : List Descriptor}
    (h : verifyLayers platform bytes members layers = .ok ()) :
    verifyLayers platform (bytes ++ extra) members layers = .ok () := by
  induction layers with
  | nil => rfl
  | cons layer layers ih =>
    simp only [verifyLayers, bind_eq_ok] at h ⊢
    obtain ⟨member, hmember, hrest⟩ := h
    exact ⟨member, verifyBlob_append hinside hmember, ih hrest⟩

end

/-- An archive is accepted with anything after its end marker. -/
theorem verifyOciArchive_append {extra : List UInt8}
    (hlength : (bytes ++ extra).length ≤ maxBytes)
    (h : verifyOciArchive platform bytes expectedDigest size maxBytes = .ok verified) :
    verifyOciArchive platform (bytes ++ extra) (sha256Digest platform (bytes ++ extra))
      (bytes ++ extra).length maxBytes = .ok { verified with
        artifactDigest := sha256Digest platform (bytes ++ extra)
        sizeBytes := (bytes ++ extra).length } := by
  unfold verifyOciArchive at h ⊢
  simp only [↓refuse_bind, bind_eq_ok] at h ⊢
  obtain ⟨-, -, ⟨members, dataEnd⟩, hcatalog, hnodup, layoutMember, hlayoutMember, indexMember,
    hindexMember, layoutBytes, hlayoutBytes, layout, hlayout, hlayoutJson, indexBytes, hindexBytes,
    index, hindex, manifestValue, hmanifestValue, manifest, hmanifest, manifestMember,
    hmanifestMember, manifestBytes, hmanifestBytes, manifestJson, hmanifestJson, parts, hparts,
    config, hconfig, layers, hlayers, hlayerDigests, configMember, hconfigMember, configBytes,
    hconfigBytes, imageConfig, himageConfig, ⟨⟩, hverified, hfiles, hresult⟩ := h
  have hinside := inside_of_catalog hcatalog
  obtain rfl := Except.ok.inj hresult
  have hlonger : catalogTarMembers platform (bytes ++ extra) maxBytes = .ok (members, dataEnd) := by
    apply catalogFrom_append _ hcatalog
    rw [length_append]
    omega
  have hread {member : TarMember} {content : List UInt8} (hmem : member ∈ members)
      (h : readMemberBytes bytes member MAX_METADATA_BYTES = .ok content) :
      readMemberBytes (bytes ++ extra) member MAX_METADATA_BYTES = .ok content :=
    (readMemberBytes_append hinside hmem).trans h
  have hsize : ¬ ((bytes ++ extra).length ≠ (bytes ++ extra).length ∨
      maxBytes < (bytes ++ extra).length) := by omega
  exact ⟨hsize, not_not.mpr rfl, ⟨members, dataEnd⟩, hlonger, hnodup, layoutMember, hlayoutMember,
    indexMember, hindexMember, layoutBytes, hread (requireFile_eq_ok hlayoutMember).1 hlayoutBytes,
    layout, hlayout, hlayoutJson, indexBytes,
    hread (requireFile_eq_ok hindexMember).1 hindexBytes, index, hindex, manifestValue,
    hmanifestValue, manifest, hmanifest, manifestMember, verifyBlob_append hinside hmanifestMember,
    manifestBytes, hread (verifyBlob_eq_ok hmanifestMember).1 hmanifestBytes, manifestJson,
    hmanifestJson, parts, hparts, config, hconfig, layers, hlayers, hlayerDigests, configMember,
    verifyBlob_append hinside hconfigMember, configBytes,
    hread (verifyBlob_eq_ok hconfigMember).1 hconfigBytes, imageConfig, himageConfig, (),
    verifyLayers_append hinside hverified, hfiles, rfl⟩

theorem artifactDigest_of_accepted
    (h : verifyOciArchive platform bytes expectedDigest size maxBytes = .ok verified) :
    verified.artifactDigest = expectedDigest := by
  obtain ⟨-, -, -, -, -, -, -, -, -, hdigest⟩ := verifyOciArchive_eq_ok h
  exact hdigest

theorem length_of_accepted
    (h : verifyOciArchive platform bytes expectedDigest size maxBytes = .ok verified) :
    bytes.length = size ∧ size ≤ maxBytes := by
  unfold verifyOciArchive at h
  rw [refuse_bind] at h
  omega

/-! ### Entries and members -/

variable {entries : List TarEntry}

theorem actualFiles_eq : actualFiles (entries.map TarEntry.member) =
    (entries.filter (·.IsRegular)).map fun entry ↦ memberName entry.name := by
  rw [actualFiles, List.filter_map, List.map_map]
  exact map_congr_left fun entry _ ↦ entry.member_name

/-- A file of the catalog is a regular entry. -/
theorem exists_entry {member : TarMember} (h : member ∈ entries.map TarEntry.member)
    (hfile : member.isFile) :
    ∃ entry ∈ entries.filter (·.IsRegular), entry.member = member := by
  obtain ⟨entry, hmem, rfl⟩ := List.mem_map.mp h
  exact ⟨entry, mem_filter.mpr ⟨hmem, hfile⟩, rfl⟩

variable {manifest config : Descriptor} {layers : List Descriptor} {verified : VerifiedOciArchive}

variable {entry : TarEntry}

/-- When no file is misnamed, its header has the name of the catalog. -/
theorem name_member (hnamed : ∀ entry ∈ entries, ¬ entry.IsMisnamed)
    (h : entry ∈ entries.filter (·.IsRegular)) : entry.member.name = entry.name := by
  obtain ⟨hmem, hregular⟩ := mem_filter.mp h
  rw [TarEntry.member_name]
  exact memberName_of_getLast? fun hslash ↦
    hnamed entry hmem ⟨of_decide_eq_true hregular, hslash⟩

/-- The content of an entry is complete. -/
theorem length_content (htar : TarEntries platform bytes 0 entries stop) (h : entry ∈ entries) :
    (entry.content bytes).length = entry.size := by
  obtain ⟨-, hlength, hinside⟩ := htar.inside
  have hend := hinside entry h
  simp only [TarEntry.content, subarray, length_take, length_drop]
  omega

theorem Checked.isArchiveOf
    (h : Checked platform bytes (entries.map TarEntry.member) manifest config layers)
    (htar : TarEntries platform bytes 0 entries verified.archiveDataEnd)
    (hmanifest : verified.manifestDigest = manifest.digest)
    (hconfig : verified.configDigest = config.digest)
    (hlayers : verified.layerDigests = layers.map (·.digest))
    (hnamed : ∀ entry ∈ entries, ¬ entry.IsMisnamed) :
    IsArchiveOf platform bytes entries manifest config layers verified := by
  obtain ⟨-, hlength, hinside⟩ := htar.inside
  have hnames : (entries.filter (·.IsRegular)).map (fun entry ↦ memberName entry.name) =
      (entries.filter (·.IsRegular)).map (·.name) :=
    map_congr_left fun entry hentry ↦ entry.member_name.symm.trans (name_member hnamed hentry)
  have hblob {descriptor : Descriptor} (hmember : ∃ member ∈ entries.map TarEntry.member,
      member.name = blobMemberName descriptor.digest ∧ member.isFile ∧
        IsBlob platform bytes descriptor member) :
      ∃ file ∈ entries.filter (·.IsRegular), file.name = blobMemberName descriptor.digest ∧
        (file.content bytes).length = descriptor.size ∧
        sha256Digest platform (file.content bytes) = descriptor.digest := by
    obtain ⟨member, hmem, hname, hfile, hsize, hdigest⟩ := hmember
    obtain ⟨entry, hentry, rfl⟩ := exists_entry hmem hfile
    refine ⟨entry, hentry, (name_member hnamed hentry).symm.trans hname, ?_, hdigest⟩
    rw [length_content htar (mem_filter.mp hentry).1]
    exact hsize
  constructor
  · exact htar
  · rw [← hnames, ← actualFiles_eq]
    exact (filter_sublist.map _).nodup h.nodup
  · intro name
    rw [← hnames, ← actualFiles_eq]
    exact h.files name
  · constructor
    · obtain ⟨member, hmem, hname, hfile, record, value, hparse, hmanifests, hdescribes⟩ :=
        h.indexFile
      obtain ⟨entry, hentry, rfl⟩ := exists_entry hmem hfile
      exact ⟨entry, hentry, (name_member hnamed hentry).symm.trans hname, record, value, hparse,
        hmanifests, hdescribes⟩
    · obtain ⟨member, hmem, hname, hfile, -, hparts⟩ := h.manifestBlob
      obtain ⟨entry, hentry, rfl⟩ := exists_entry hmem hfile
      exact ⟨entry, hentry, (name_member hnamed hentry).symm.trans hname, hparts⟩
  · intro descriptor hmem
    obtain rfl | hmem := mem_cons.mp hmem
    · obtain ⟨member, hmember, hname, hfile, hblobs, -⟩ := h.manifestBlob
      exact hblob ⟨member, hmember, hname, hfile, hblobs⟩
    · obtain rfl | hmem := mem_cons.mp hmem
      · exact hblob h.configBlob
      · exact hblob (h.layerBlobs descriptor hmem)
  · exact hmanifest
  · exact hconfig
  · exact hlayers
  · exact hinside
  · omega

/-- No file that is named by an index or a manifest has a name like that of a directory. -/
theorem getLast?_expectedFiles (h : name ∈ expectedFiles manifest config layers)
    (hdigests : ∀ descriptor ∈ manifest :: config :: layers,
      Schema.isDigest descriptor.digest) : name.toList.getLast? ≠ some '/' := by
  have hblob {descriptor : Descriptor} (hmem : descriptor ∈ manifest :: config :: layers) :
      (blobMemberName descriptor.digest).toList.getLast? ≠ some '/' :=
    getLast?_blobMemberName (hdigests descriptor hmem)
  simp only [expectedFiles, mem_append, mem_cons, not_mem_nil, or_false,
    List.mem_map] at h
  obtain (rfl | rfl | rfl | rfl) | ⟨layer, hlayer, rfl⟩ := h
  · decide
  · decide
  · exact hblob (by simp)
  · exact hblob (by simp)
  · exact hblob (by simp [hlayer])

/-- A member that is both a file and a directory for the catalog is a misnamed entry. -/
theorem TarEntry.isMisnamed_iff :
    entry.IsMisnamed ↔ entry.member.isFile ∧ entry.member.isDir := by
  unfold TarEntry.IsMisnamed TarEntry.member
  simp only [decide_eq_true_eq]
  constructor
  · intro ⟨hregular, hslash⟩
    exact ⟨hregular, .inr hslash⟩
  · intro ⟨hregular, hdir⟩
    refine ⟨hregular, hdir.resolve_left fun hfive ↦ ?_⟩
    obtain hflag | hflag := hregular
    · exact absurd (hfive.symm.trans hflag) (by decide)
    · exact absurd (hfive.symm.trans hflag) (by decide)

/-- A misnamed file is not among the files that the index and the manifest name. -/
theorem not_isSound_of_isMisnamed
    (h : verifyOciArchive platform bytes expectedDigest size maxBytes = .ok verified)
    (htar : TarEntries platform bytes 0 entries stop) (hmem : entry ∈ entries)
    (hmisnamed : entry.IsMisnamed) : ¬ IsSound platform bytes verified := by
  obtain ⟨members, manifest, config, layers, -, hchecked, hmanifest, hconfig, hlayers, -⟩ :=
    verifyOciArchive_eq_ok h
  rintro ⟨found, manifest', config', layers', hsound⟩
  obtain ⟨rfl, -⟩ := hsound.tar.unique htar
  obtain ⟨hregular, hslash⟩ := hmisnamed
  have hname : entry.name ∈ (found.filter (·.IsRegular)).map (·.name) :=
    List.mem_map.mpr ⟨entry, mem_filter.mpr ⟨hmem, decide_eq_true hregular⟩, rfl⟩
  have hdigests : ∀ descriptor ∈ manifest' :: config' :: layers',
      Schema.isDigest descriptor.digest := by
    have hall := hchecked.digests
    simp only [forall_mem_cons] at hall ⊢
    refine ⟨?_, ?_, fun layer hlayer ↦ ?_⟩
    · rw [← hsound.manifestDigest, hmanifest]
      exact hall.1
    · rw [← hsound.configDigest, hconfig]
      exact hall.2.1
    · have hlisted : layer.digest ∈ layers.map (·.digest) := by
        rw [← hlayers, hsound.layerDigests]
        exact List.mem_map.mpr ⟨layer, hlayer, rfl⟩
      obtain ⟨layer', hlayer', hsame⟩ := List.mem_map.mp hlisted
      rw [← hsame]
      exact hall.2.2 layer' hlayer'
  exact getLast?_expectedFiles ((hsound.names entry.name).mp hname) hdigests hslash

/-- The catalog of an accepted archive shows whether a file is misnamed. -/
theorem exists_isMisnamed
    (haccepted : (verifyOciArchive platform bytes expectedDigest size maxBytes).toOption.isSome)
    (hboth : (catalogTarMembers platform bytes maxBytes).toOption.any (fun catalog ↦
      catalog.1.any fun member ↦ member.isFile && member.isDir)) :
    ∃ verified, verifyOciArchive platform bytes expectedDigest size maxBytes = .ok verified ∧
      ∃ entries stop, TarEntries platform bytes 0 entries stop ∧
        ∃ entry ∈ entries, entry.IsMisnamed := by
  cases hverified : verifyOciArchive platform bytes expectedDigest size maxBytes with
  | error => simp [hverified, Except.toOption] at haccepted
  | ok verified =>
    cases hcatalog : catalogTarMembers platform bytes maxBytes with
    | error => simp [hcatalog, Except.toOption] at hboth
    | ok catalog =>
      obtain ⟨entries, htar, hmembers⟩ := catalogFrom_eq_ok hcatalog
      rw [hcatalog] at hboth
      obtain ⟨member, hmem, hflags⟩ := List.any_eq_true.mp hboth
      rw [hmembers] at hmem
      obtain ⟨entry, hentry, rfl⟩ := List.mem_map.mp hmem
      exact ⟨verified, rfl, entries, _, htar, entry, hentry,
        TarEntry.isMisnamed_iff.mpr (Bool.and_eq_true_iff.mp hflags)⟩

/-- An accepted archive is what its index and its manifest say, exactly when no regular file is
named like a directory in its header. -/
theorem verifyOciArchive_sound_iff {expectedDigest : String} {size maxBytes : Nat}
    (h : verifyOciArchive platform bytes expectedDigest size maxBytes = .ok verified) :
    IsSound platform bytes verified ↔
      ∀ entries stop, TarEntries platform bytes 0 entries stop →
        ∀ entry ∈ entries, ¬ entry.IsMisnamed := by
  obtain ⟨members, manifest, config, layers, hcatalog, hchecked, hmanifest, hconfig, hlayers, -⟩ :=
    verifyOciArchive_eq_ok h
  obtain ⟨entries, htar, rfl⟩ := catalogFrom_eq_ok hcatalog
  constructor
  · intro hsound found stop htar' entry hmem hmisnamed
    exact not_isSound_of_isMisnamed h htar' hmem hmisnamed hsound
  · intro hnamed
    exact ⟨entries, manifest, config, layers,
      hchecked.isArchiveOf htar hmanifest hconfig hlayers (hnamed entries _ htar)⟩

end

/-! ## An archive -/

namespace Sample

/-- The characters of a text that is written in pieces. -/
def pieces (texts : List String) : List Char := texts.flatMap String.toList

def bytesOf (text : List Char) : List UInt8 := text.map fun c ↦ UInt8.ofNat c.toNat

/-- A header with a name and a size in eleven octal digits. -/
def tarHeader (name : List Char) (size : String) : List UInt8 :=
  bytesOf name ++ (List.replicate (124 - name.length) 0 ++ (bytesOf size.toList ++
    (List.replicate 21 0 ++ (48 :: List.replicate 100 0 ++ (bytesOf "ustar".toList ++
      List.replicate 250 0)))))

def tarFile (name : List Char) (size : String) (content : List Char) (rest : List UInt8) :
    List UInt8 :=
  tarHeader name size ++ (bytesOf content ++ (List.replicate (512 - content.length) 0 ++ rest))

def manifestHash : List Char :=
  pieces ["c18d69ac3ba3e775", "ab5837ebd5e526dd", "e0bcef2c72d0cfb2", "6c6ccec7645245e5"]

def configHash : List Char :=
  pieces ["44136fa355b3678a", "1146ad16f7e8649e", "94fb4fc21fe77e83", "10c060f61caaff8a"]

def archiveHash : List Char :=
  pieces ["bc30364689f7c249", "58e22aee581ed2d7", "e1e9249f5e262fab", "9bf82f7de195e693"]

/-- The hash of the archive with one more block at its end. -/
def longerHash : List Char :=
  pieces ["a44a6db79eeb6e50", "5030d873579180bc", "3969081975fe9c10", "444a0ef1d7f7db1c"]

def layoutText : List Char := pieces ["\x7b\"imageLayout", "Version\":\"1.0.0\"\x7d"]

def manifestText : List Char :=
  pieces ["\x7b\"schemaVersion\"", ":2,\"config\":\x7b\"m", "ediaType\":\"appli", "cation/vnd.oci.i",
    "mage.config.v1+j", "son\",\"digest\":\"s", "ha256:"] ++ configHash ++
    pieces ["\",\"size\":2\x7d,\"la", "yers\":[]\x7d"]

def indexText : List Char :=
  pieces ["\x7b\"schemaVersion\"", ":2,\"manifests\":", "[\x7b\"mediaType\":\"a", "pplication/vnd.o",
    "ci.image.manifes", "t.v1+json\",\"dige", "st\":\"sha256:"] ++ manifestHash ++
    pieces ["\",\"size\":189\x7d]\x7d"]

/-- An image without layers. Its first file is named with a slash at the end. -/
def misnamedArchive : List UInt8 :=
  tarFile "oci-layout/".toList "00000000036" layoutText
    (tarFile "index.json".toList "00000000272" indexText
      (tarFile ("blobs/sha256/".toList ++ manifestHash) "00000000275" manifestText
        (tarFile ("blobs/sha256/".toList ++ configHash) "00000000002" ['\x7b', '\x7d']
          (List.replicate 1024 0))))

def archivePlatform : ArchivePlatform where
  sha256 := fun bytes ↦
    String.ofList (if bytes.length = 2 then configHash
      else if bytes.length = 189 then manifestHash
      else if bytes.length = 5120 then archiveHash
      else longerHash)
  text := fun bytes ↦ String.ofList (bytes.map fun b ↦ Char.ofNat b.toNat)
  number := fun text ↦ if text = "2" then some 2 else if text = "189" then some 189 else none
  numberText := fun _ ↦ ""
  trim := id

def misnamedDigest : String := "sha256:" ++ String.ofList archiveHash

def parseChars (cs : List Char) : Option Json :=
  match Json.readValue archivePlatform.number (cs.length + 1) cs with
  | some (value, rest) => if Json.skipSpace rest = [] then some value else none
  | none => none

theorem parse_text (bytes : List UInt8) :
    Json.parse archivePlatform.number (archivePlatform.text bytes) =
      parseChars (bytes.map fun b ↦ Char.ofNat b.toNat) := by
  have htext : (archivePlatform.text bytes).toList = bytes.map fun b ↦ Char.ofNat b.toNat :=
    String.toList_ofList
  rw [Json.parse, ← String.length_toList, htext]
  rfl

theorem length_tarFile {name content : List Char} {size : String} {rest : List UInt8}
    (hname : name.length ≤ 124) (hsize : size.toList.length = 11) (hcontent : content.length ≤ 512) :
    (tarFile name size content rest).length = 1024 + rest.length := by
  have hmagic : "ustar".toList.length = 5 := by decide
  simp only [tarFile, tarHeader, bytesOf, length_append, length_cons, length_map, length_replicate,
    hsize, hmagic]
  omega

set_option maxRecDepth 10000 in
theorem length_misnamedArchive : misnamedArchive.length = 5120 := by
  rw [misnamedArchive, length_tarFile (by decide) (by decide) (by decide),
    length_tarFile (by decide) (by decide) (by decide),
    length_tarFile (by decide) (by decide) (by decide),
    length_tarFile (by decide) (by decide) (by decide), length_replicate]

theorem sha256_misnamedArchive : sha256Digest archivePlatform misnamedArchive = misnamedDigest := by
  simp [sha256Digest, archivePlatform, length_misnamedArchive, misnamedDigest]

def misnamedMembers : List TarMember :=
  [⟨"oci-layout", 30, true, true, 512⟩, ⟨"index.json", 186, true, false, 1536⟩,
    ⟨"blobs/sha256/" ++ String.ofList manifestHash, 189, true, false, 2560⟩,
    ⟨"blobs/sha256/" ++ String.ofList configHash, 2, true, false, 3584⟩]

theorem catalog_misnamedArchive :
    catalogTarMembers archivePlatform misnamedArchive 250000000 = .ok (misnamedMembers, 4096) := by
  rw [catalogTarMembers, length_misnamedArchive]
  decide +kernel

set_option maxRecDepth 100000 in
theorem misnamedArchive_accepted : (verifyOciArchive archivePlatform misnamedArchive misnamedDigest
    5120 250000000).toOption.isSome = true := by
  simp only [verifyOciArchive, length_misnamedArchive, sha256_misnamedArchive,
    catalog_misnamedArchive, parseStrictJson, parse_text]
  decide +kernel

theorem exists_misnamedArchive : ∃ verified, verifyOciArchive archivePlatform misnamedArchive
    misnamedDigest 5120 250000000 = .ok verified ∧ ∃ entries stop,
      TarEntries archivePlatform misnamedArchive 0 entries stop ∧
      ∃ entry ∈ entries, entry.IsMisnamed :=
  exists_isMisnamed misnamedArchive_accepted (by rw [catalog_misnamedArchive]; rfl)

end Sample

/-- Such an archive is accepted. -/
theorem verifyOciArchive_accepts_misnamed : ¬ ∀ platform bytes expectedDigest size maxBytes verified,
    verifyOciArchive platform bytes expectedDigest size maxBytes = .ok verified →
      IsSound platform bytes verified := by
  intro hclaim
  obtain ⟨verified, hverified, entries, stop, htar, entry, hmem, hmisnamed⟩ :=
    Sample.exists_misnamedArchive
  exact not_isSound_of_isMisnamed hverified htar hmem hmisnamed (hclaim _ _ _ _ _ _ hverified)

theorem verifyOciArchive_sound_iff_misnamed : ∃ verified,
    verifyOciArchive Sample.archivePlatform Sample.misnamedArchive Sample.misnamedDigest 5120
      250000000 = .ok verified ∧
    (IsSound Sample.archivePlatform Sample.misnamedArchive verified ↔
      ∀ entries stop, TarEntries Sample.archivePlatform Sample.misnamedArchive 0 entries stop →
        ∀ entry ∈ entries, ¬ entry.IsMisnamed) := by
  obtain ⟨verified, hverified, -⟩ := Sample.exists_misnamedArchive
  exact ⟨verified, hverified, verifyOciArchive_sound_iff hverified⟩

end PrivosCluster.LocalRuntime
