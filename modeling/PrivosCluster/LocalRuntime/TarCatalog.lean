import Mathlib.Tactic.Ring
import PrivosCluster.LocalRuntime.OciArchiveSpec

/-!
# The catalog of a tar file

The loop over the headers ends on every file. The members it lists lie one after the other in whole
blocks, up to the end marker. Another reader lists the same members as long as the size fields hold
what the format allows in them.
-/

namespace PrivosCluster.LocalRuntime

open List TarMember

variable {platform : ArchivePlatform} {bytes : List UInt8} {maxBytes : Nat}

/-! ## The loop -/

/-- The rounds of the loop from some header on, as many as it takes. -/
inductive Catalogs (platform : ArchivePlatform) (bytes : List UInt8) (maxBytes : Nat) :
    Nat → Nat → Except ArchiveError (List TarMember × Nat) → Prop
  | missing {offset count : Nat} (past : bytes.length ≤ offset) :
    Catalogs platform bytes maxBytes offset count
      (.error (.artifactError "tar archive is missing its end-of-archive marker"))
  | truncated {offset count : Nat} (inside : offset < bytes.length)
      (short : (subarray bytes offset (offset + BLOCK)).length ≠ BLOCK) :
    Catalogs platform bytes maxBytes offset count
      (.error (.artifactError "truncated tar header block"))
  | marker {offset count : Nat} (inside : offset < bytes.length)
      (block : (subarray bytes offset (offset + BLOCK)).length = BLOCK)
      (zero : (subarray bytes offset (offset + BLOCK)).all (· = 0) = true) :
    Catalogs platform bytes maxBytes offset count (.ok ([], offset))
  | refused {offset count : Nat} {e : ArchiveError} (inside : offset < bytes.length)
      (block : (subarray bytes offset (offset + BLOCK)).length = BLOCK)
      (content : (subarray bytes offset (offset + BLOCK)).all (· = 0) = false)
      (error : tarMember platform maxBytes count (subarray bytes offset (offset + BLOCK))
        (offset + BLOCK) = .error e) :
    Catalogs platform bytes maxBytes offset count (.error e)
  | member {offset count : Nat} {member : TarMember}
      {result : Except ArchiveError (List TarMember × Nat)} (inside : offset < bytes.length)
      (block : (subarray bytes offset (offset + BLOCK)).length = BLOCK)
      (content : (subarray bytes offset (offset + BLOCK)).all (· = 0) = false)
      (accepted : tarMember platform maxBytes count (subarray bytes offset (offset + BLOCK))
        (offset + BLOCK) = .ok member)
      (rest : Catalogs platform bytes maxBytes (nextOffset (offset + BLOCK) member.size)
        (count + 1) result) :
    Catalogs platform bytes maxBytes offset count
      (result.map fun catalog ↦ (member :: catalog.1, catalog.2))

theorem lt_nextOffset (offset size : Nat) : offset < nextOffset (offset + BLOCK) size := by
  have h := le_nextOffset (offset + BLOCK) size
  unfold BLOCK at h ⊢
  omega

variable {offset count : Nat}

variable {fuel stop size : Nat}

/-- Every round leaves a header behind, so that the rounds do not outnumber the bytes. -/
theorem catalogs_catalogFrom (hfuel : bytes.length < offset + fuel) :
    Catalogs platform bytes maxBytes offset count
      (catalogFrom platform bytes maxBytes fuel offset count) := by
  induction fuel generalizing offset count with
  | zero => exact .missing (by omega)
  | succ fuel ih =>
    unfold catalogFrom
    split
    next hpast => exact .missing hpast
    next hinside =>
      have hinside := Nat.lt_of_not_le hinside
      dsimp only
      split
      next hshort => exact .truncated hinside hshort
      next hblock =>
        have hblock := not_not.mp hblock
        split
        next hzero => exact .marker hinside hblock hzero
        next hcontent =>
          have hcontent := Bool.eq_false_of_not_eq_true hcontent
          cases hmember : tarMember platform maxBytes count
              (subarray bytes offset (offset + BLOCK)) (offset + BLOCK) with
          | error e => exact .refused hinside hblock hcontent hmember
          | ok member =>
            have hnext := lt_nextOffset offset member.size
            have hfuel' : bytes.length < nextOffset (offset + BLOCK) member.size + fuel := by omega
            have hrest := @ih _ (count + 1) hfuel'
            have hround := Catalogs.member hinside hblock hcontent hmember hrest
            cases hresult : catalogFrom platform bytes maxBytes fuel
                (nextOffset (offset + BLOCK) member.size) (count + 1) with
            | error e | ok catalog =>
              rw [hresult] at hround
              simp only [bind, Except.bind, hresult]
              exact hround

variable {result : Except ArchiveError (List TarMember × Nat)}

/-- What the rounds come to does not depend on how many are allowed for. -/
theorem Catalogs.eq_catalogFrom (h : Catalogs platform bytes maxBytes offset count result)
    (hfuel : bytes.length < offset + fuel) :
    catalogFrom platform bytes maxBytes fuel offset count = result := by
  induction h generalizing fuel with
  | missing hpast =>
    cases fuel with
    | zero => rfl
    | succ fuel => simp only [catalogFrom, if_pos hpast]
  | truncated hinside hshort =>
    obtain ⟨fuel, rfl⟩ := Nat.exists_eq_add_of_le' (by omega : 1 ≤ fuel)
    simp only [catalogFrom, if_neg (Nat.not_le.mpr hinside), if_pos hshort]
  | marker hinside hblock hzero =>
    obtain ⟨fuel, rfl⟩ := Nat.exists_eq_add_of_le' (by omega : 1 ≤ fuel)
    simp only [catalogFrom, if_neg (Nat.not_le.mpr hinside), if_neg (not_not.mpr hblock),
      if_pos hzero]
  | refused hinside hblock hcontent herror =>
    obtain ⟨fuel, rfl⟩ := Nat.exists_eq_add_of_le' (by omega : 1 ≤ fuel)
    simp only [catalogFrom, if_neg (Nat.not_le.mpr hinside), if_neg (not_not.mpr hblock), hcontent,
      Bool.false_eq_true, if_false, herror]
    rfl
  | @member offset count member result hinside hblock hcontent haccepted _ ih =>
    obtain ⟨fuel, rfl⟩ := Nat.exists_eq_add_of_le' (by omega : 1 ≤ fuel)
    have hnext := lt_nextOffset offset member.size
    have hrest := ih (by omega : bytes.length < nextOffset (offset + BLOCK) member.size + fuel)
    simp only [catalogFrom, if_neg (Nat.not_le.mpr hinside), if_neg (not_not.mpr hblock), hcontent,
      Bool.false_eq_true, if_false, haccepted, bind, Except.bind, hrest]
    cases result <;> rfl

/-- The loop comes to its end on every file, in the one way that the catalog says. -/
theorem catalogs_iff :
    Catalogs platform bytes maxBytes 0 0 result ↔
      catalogTarMembers platform bytes maxBytes = result := by
  have hfuel : bytes.length < 0 + (bytes.length + 1) := by omega
  constructor
  · exact fun h ↦ h.eq_catalogFrom hfuel
  · rintro rfl
    exact catalogs_catalogFrom hfuel

/-! ## Headers and data -/

/-- Where the header of a member begins. -/
def TarMember.headerOffset (member : TarMember) : Nat := member.dataOffset - BLOCK

/-- Where the padded data of a member ends. -/
def TarMember.dataStop (member : TarMember) : Nat := nextOffset member.dataOffset member.size

def TarMember.header (bytes : List UInt8) (member : TarMember) : List UInt8 :=
  subarray bytes member.headerOffset member.dataOffset

def TarMember.paddedData (bytes : List UInt8) (member : TarMember) : List UInt8 :=
  subarray bytes member.dataOffset member.dataStop

/-- The members lie one after the other in whole blocks, from `start` up to the end marker. -/
structure Tiles (platform : ArchivePlatform) (bytes : List UInt8) (maxBytes start : Nat)
    (members : List TarMember) (dataEnd : Nat) : Prop where
  /-- The member is what its header says. -/
  headers : ∀ member ∈ members, ∃ count,
    tarMember platform maxBytes count (member.header bytes) member.dataOffset = .ok member
  aligned : ∀ member ∈ members,
    BLOCK ∣ member.headerOffset ∧ BLOCK ∣ member.dataOffset ∧ BLOCK ∣ member.dataStop
  alignedEnd : BLOCK ∣ dataEnd
  /-- A header of one block, the data behind it, and the end of both not after the marker. -/
  inside : ∀ member ∈ members, start ≤ member.headerOffset ∧
    member.headerOffset + BLOCK = member.dataOffset ∧
    member.dataOffset + member.size ≤ member.dataStop ∧ member.dataStop ≤ dataEnd
  ordered : members.Pairwise fun member later ↦ member.dataStop ≤ later.headerOffset
  /-- There is nothing else before the marker. -/
  covered : subarray bytes start dataEnd =
    members.flatMap fun member ↦ member.header bytes ++ member.paddedData bytes
  fits : dataEnd + BLOCK ≤ bytes.length
  zero : ∀ b ∈ subarray bytes dataEnd (dataEnd + BLOCK), b = 0

theorem subarray_split {start middle : Nat} (hstart : start ≤ middle) (hstop : middle ≤ stop) :
    subarray bytes start middle ++ subarray bytes middle stop = subarray bytes start stop := by
  unfold subarray
  have hlength : stop - start = (middle - start) + (stop - middle) := by omega
  have hdrop : bytes.drop middle = (bytes.drop start).drop (middle - start) := by
    rw [drop_drop]
    congr 1
    omega
  rw [hlength, take_add, hdrop]

theorem subarray_self : subarray bytes offset offset = [] := by
  simp [subarray]

theorem add_le_of_block (h : (subarray bytes offset (offset + BLOCK)).length = BLOCK) :
    offset + BLOCK ≤ bytes.length := by
  simp only [subarray, length_take, length_drop, BLOCK] at h ⊢
  omega

theorem dvd_nextOffset (h : BLOCK ∣ offset) : BLOCK ∣ nextOffset offset size :=
  Nat.dvd_add h (Nat.dvd_mul_left _ _)

variable {member : TarMember}

variable {dataOffset n : Nat} {digits rest : List UInt8} {b : UInt8}

theorem dataOffset_of_tarMember {header : List UInt8}
    (h : tarMember platform maxBytes count header dataOffset = .ok member) :
    member.dataOffset = dataOffset := by
  obtain ⟨size, -, rfl⟩ := tarMember_eq_ok h
  rfl

variable {members : List TarMember} {dataEnd : Nat}

/-- One member is put before the ones that follow it. -/
theorem Tiles.cons (hoffset : BLOCK ∣ offset)
    (hmember : tarMember platform maxBytes count (subarray bytes offset (offset + BLOCK))
      (offset + BLOCK) = .ok member)
    (h : Tiles platform bytes maxBytes (nextOffset (offset + BLOCK) member.size) members dataEnd)
    (hstart : nextOffset (offset + BLOCK) member.size ≤ dataEnd) :
    Tiles platform bytes maxBytes offset (member :: members) dataEnd := by
  have hdata : member.dataOffset = offset + BLOCK := dataOffset_of_tarMember hmember
  have hheader : member.headerOffset = offset := by
    unfold headerOffset
    omega
  have hstop : member.dataStop = nextOffset (offset + BLOCK) member.size := by
    unfold dataStop
    rw [hdata]
  have hread : member.header bytes = subarray bytes offset (offset + BLOCK) := by
    unfold TarMember.header
    rw [hheader, hdata]
  have hpadded : member.paddedData bytes =
      subarray bytes (offset + BLOCK) (nextOffset (offset + BLOCK) member.size) := by
    unfold paddedData
    rw [hdata, hstop]
  have hblock : BLOCK ∣ offset + BLOCK := Nat.dvd_add hoffset (Nat.dvd_refl _)
  have hsize := le_nextOffset (offset + BLOCK) member.size
  constructor
  · apply forall_mem_cons.mpr ⟨⟨count, _⟩, h.headers⟩
    rw [hread, hdata]
    exact hmember
  · apply forall_mem_cons.mpr ⟨_, h.aligned⟩
    rw [hheader, hdata, hstop]
    exact ⟨hoffset, hblock, dvd_nextOffset hblock⟩
  · exact h.alignedEnd
  · intro other hmem
    obtain rfl | hmem := mem_cons.mp hmem
    · rw [hheader, hdata, hstop]
      exact ⟨le_rfl, rfl, hsize, hstart⟩
    · obtain ⟨hafter, hrest⟩ := h.inside other hmem
      exact ⟨by omega, hrest⟩
  · apply pairwise_cons.mpr ⟨_, h.ordered⟩
    intro later hmem
    rw [hstop]
    exact (h.inside later hmem).1
  · rw [flatMap_cons, ← h.covered, hread, hpadded, subarray_split (by omega) (by omega),
      subarray_split (by omega) hstart]
  · exact h.fits
  · exact h.zero

/-- Every member takes a block at least. -/
theorem Catalogs.le (h : Catalogs platform bytes maxBytes offset count result)
    (hresult : result = .ok (members, dataEnd)) : offset + BLOCK * members.length ≤ dataEnd := by
  induction h generalizing members with
  | missing => cases hresult
  | truncated => cases hresult
  | refused => cases hresult
  | marker =>
    cases hresult
    exact le_rfl
  | @member offset count member result _ _ _ _ _ ih =>
    cases result with
    | error e => cases hresult
    | ok catalog =>
      cases hresult
      have hrest := ih rfl
      have hnext := le_nextOffset (offset + BLOCK) member.size
      rw [length_cons, Nat.mul_succ]
      omega

theorem Catalogs.tiles (h : Catalogs platform bytes maxBytes offset count result)
    (hoffset : BLOCK ∣ offset) (hresult : result = .ok (members, dataEnd)) :
    Tiles platform bytes maxBytes offset members dataEnd := by
  induction h generalizing members with
  | missing => cases hresult
  | truncated => cases hresult
  | refused => cases hresult
  | @marker offset count hinside hblock hzero =>
    cases hresult
    constructor
    · exact fun _ hmem ↦ absurd hmem not_mem_nil
    · exact fun _ hmem ↦ absurd hmem not_mem_nil
    · exact hoffset
    · exact fun _ hmem ↦ absurd hmem not_mem_nil
    · exact .nil
    · exact subarray_self
    · exact add_le_of_block hblock
    · exact fun b hb ↦ of_decide_eq_true (List.all_eq_true.mp hzero b hb)
  | @member offset count member result hinside hblock hcontent haccepted hrest ih =>
    cases result with
    | error e => cases hresult
    | ok catalog =>
      cases hresult
      have hnext : BLOCK ∣ nextOffset (offset + BLOCK) member.size :=
        dvd_nextOffset (Nat.dvd_add hoffset (Nat.dvd_refl _))
      exact (ih hnext rfl).cons hoffset haccepted (Nat.le_of_add_right_le (hrest.le rfl))

/-- The loop ends on every file, and the members that it lists fill the file up to the marker. -/
theorem catalogTarMembers_tiles (platform : ArchivePlatform) (bytes : List UInt8)
    (maxBytes : Nat) :
    (∀ result, Catalogs platform bytes maxBytes 0 0 result ↔
      catalogTarMembers platform bytes maxBytes = result) ∧
    ∀ members dataEnd, catalogTarMembers platform bytes maxBytes = .ok (members, dataEnd) →
      Tiles platform bytes maxBytes 0 members dataEnd := by
  apply And.intro fun _ ↦ catalogs_iff
  intro members dataEnd h
  exact (catalogs_iff.mpr h).tiles (Nat.dvd_zero BLOCK) rfl

namespace Sample

/-- One file with one byte, and the size as it is written in its header. -/
def oneByteArchive (size : String) : List UInt8 :=
  tarFile ['a'] size ['x'] (List.replicate 1024 0)

def oneByteMember : TarMember where
  name := "a"
  size := 1
  isFile := true
  isDir := false
  dataOffset := 512

set_option maxRecDepth 100000 in
theorem catalog_oneByteArchive :
    catalogTarMembers archivePlatform (oneByteArchive "00000000001") 250000000 =
      .ok ([oneByteMember], 1024) := by
  decide +kernel

end Sample

theorem catalogTarMembers_tiles_oneByte :
    Tiles Sample.archivePlatform (Sample.oneByteArchive "00000000001") 250000000 0
      [Sample.oneByteMember] 1024 :=
  (catalogTarMembers_tiles _ _ _).2 _ _ Sample.catalog_oneByteArchive

/-! ## Size fields -/

def sizeField (header : List UInt8) : List UInt8 := subarray header 124 136

def isOctal (b : UInt8) : Bool := 48 ≤ b && b ≤ 55

/-- What is between the digits and the end of a field. -/
def isFiller (b : UInt8) : Bool := b = 0 || b = 32

def octalValue (digits : List UInt8) : Nat :=
  digits.foldl (fun value b ↦ value * 8 + (b.toNat - 48)) 0

def binaryValue (first : UInt8) (rest : List UInt8) : Nat :=
  rest.foldl (fun value b ↦ value * 256 + b.toNat) (first.toNat % 128)

/-- The size that a field states in the tar format: octal digits after spaces, with nothing but zero
bytes and spaces after them, or a number in base 256 with its sign bit clear. -/
inductive UstarSize : List UInt8 → Nat → Prop
  | octal {spaces digits filler : List UInt8} (blank : ∀ b ∈ spaces, b = 32)
      (octal : ∀ b ∈ digits, isOctal b = true) (filled : ∀ b ∈ filler, isFiller b = true) :
    UstarSize (spaces ++ digits ++ filler) (octalValue digits)
  | binary {first : UInt8} {rest : List UInt8} (flag : 128 ≤ first) (sign : first < 192) :
    UstarSize (first :: rest) (binaryValue first rest)

/-- The field of a number in base 256. -/
def IsBinary (field : List UInt8) : Prop := 128 ≤ field.headD 0

/-- Only digits, spaces and zero bytes, and no digit after a zero byte. -/
def IsPlain (field : List UInt8) : Prop :=
  (∀ b ∈ field, isOctal b = true ∨ isFiller b = true) ∧
    ∀ b ∈ field.dropWhile (· ≠ 0), isFiller b = true

instance (field : List UInt8) : Decidable (IsBinary field) := inferInstanceAs (Decidable (_ ≤ _))

instance (field : List UInt8) : Decidable (IsPlain field) := inferInstanceAs (Decidable (_ ∧ _))

theorem plain_of_octal {spaces filler : List UInt8} (hblank : ∀ b ∈ spaces, b = 32)
    (hoctal : ∀ b ∈ digits, isOctal b) (hfilled : ∀ b ∈ filler, isFiller b) :
    ∀ b ∈ spaces ++ digits ++ filler, isOctal b ∨ isFiller b := by
  intro b hb
  obtain hb | hb := mem_append.mp hb
  · obtain hb | hb := mem_append.mp hb
    · rw [hblank b hb]
      exact .inr rfl
    · exact .inl (hoctal b hb)
  · exact .inr (hfilled b hb)

theorem not_isFiller_of_isOctal (h : isOctal b) : ¬ isFiller b := by
  intro hfill
  simp only [isFiller, Bool.or_eq_true, decide_eq_true_eq] at hfill
  rcases hfill with rfl | rfl <;> exact absurd h (by decide)

variable {field : List UInt8}

theorem isPlain_of_ustarSize (h : UstarSize field n) : IsBinary field ∨ IsPlain field := by
  cases h with
  | binary hflag => exact .inl hflag
  | @octal spaces digits filler hblank hoctal hfilled =>
    have hnonzero : ∀ b ∈ spaces ++ digits, decide (b ≠ 0) := by
      intro b hb
      obtain hb | hb := mem_append.mp hb
      · rw [hblank b hb]
        rfl
      · apply decide_eq_true
        rintro rfl
        exact not_isFiller_of_isOctal (hoctal 0 hb) rfl
    right
    constructor
    · exact plain_of_octal hblank hoctal hfilled
    · rw [dropWhile_append_of_pos hnonzero]
      exact fun b hb ↦ hfilled b (dropWhile_subset _ hb)

theorem pow_mul_le_foldl {value : Nat} :
    value * 256 ^ rest.length ≤ rest.foldl (fun value b ↦ value * 256 + b.toNat) value := by
  induction rest generalizing value with
  | nil => simp
  | cons b rest ih =>
    calc value * 256 ^ (rest.length + 1)
      _ = value * 256 * 256 ^ rest.length := by ring
      _ ≤ (value * 256 + b.toNat) * 256 ^ rest.length :=
        Nat.mul_le_mul_right _ (Nat.le_add_right _ _)
      _ ≤ _ := ih

/-- A number in base 256 that is accepted is the one that the field states. -/
theorem ustarSize_of_binary (hlength : field.length = 12) (hbinary : IsBinary field)
    (h : parseOctalField field = .ok n) : UstarSize field n := by
  cases field with
  | nil => cases hlength
  | cons first rest =>
    have hflag : 128 ≤ first.toNat := hbinary
    unfold parseOctalField at h
    dsimp only [headD_cons, tail_cons] at h
    rw [if_pos hflag] at h
    split at h
    · cases h
    next hsafe =>
      obtain rfl := Except.ok.inj h
      apply UstarSize.binary hbinary
      by_contra hsign
      have hsign : 192 ≤ first.toNat := UInt8.not_lt.mp hsign
      have hfirst : 64 ≤ first.toNat % 128 := by
        have hlt := first.toNat_lt
        omega
      have hrest : rest.length = 11 := by simpa using hlength
      have hlow : 64 * 256 ^ 11 ≤ binaryValue first rest := by
        calc 64 * 256 ^ 11
          _ ≤ first.toNat % 128 * 256 ^ rest.length := by
            rw [hrest]
            exact Nat.mul_le_mul_right _ hfirst
          _ ≤ _ := pow_mul_le_foldl
      unfold binaryValue at hlow
      unfold MAX_SAFE_INTEGER at hsafe
      omega

/-- The character of a byte without its highest bit. -/
def asciiChar (b : UInt8) : Char := Char.ofNat (b.toNat % 128)

theorem mem_of_plain (h : isOctal b ∨ isFiller b) :
    b ∈ ([0, 32, 48, 49, 50, 51, 52, 53, 54, 55] : List UInt8) := by
  simp only [isOctal, isFiller, Bool.and_eq_true, Bool.or_eq_true, decide_eq_true_eq,
    UInt8.le_iff_toNat_le, ← UInt8.toNat_inj, mem_cons, not_mem_nil, or_false,
    UInt8.reduceToNat] at h ⊢
  omega

/-- On these bytes the character says all. -/
theorem asciiChar_of_plain (h : isOctal b ∨ isFiller b) :
    (asciiChar b ≠ '\n' ∧ asciiChar b ≠ '\r') ∧ (asciiChar b = Char.ofNat 0 ↔ b = 0) ∧
      (isBlank (asciiChar b) ↔ b = 32) ∧
      (('0' ≤ asciiChar b ∧ asciiChar b ≤ '7') ↔ isOctal b) ∧
      (asciiChar b).toNat - '0'.toNat = b.toNat - 48 := by
  have hall : ∀ b ∈ ([0, 32, 48, 49, 50, 51, 52, 53, 54, 55] : List UInt8),
      (asciiChar b ≠ '\n' ∧ asciiChar b ≠ '\r') ∧ (asciiChar b = Char.ofNat 0 ↔ b = 0) ∧
        (isBlank (asciiChar b) ↔ b = 32) ∧
        (('0' ≤ asciiChar b ∧ asciiChar b ≤ '7') ↔ isOctal b) ∧
        (asciiChar b).toNat - '0'.toNat = b.toNat - 48 := by decide +kernel
  exact hall b (mem_of_plain h)

theorem cutAtNul_of_plain (h : ∀ b ∈ field, isOctal b ∨ isFiller b) :
    cutAtNul (field.map asciiChar) = (field.takeWhile (· ≠ 0)).map asciiChar := by
  induction field with
  | nil => rfl
  | cons b field ih =>
    obtain ⟨hb, hfield⟩ := forall_mem_cons.mp h
    have hlines : (field.map asciiChar).all (fun d ↦ d ≠ '\n' ∧ d ≠ '\r') := by
      apply List.all_eq_true.mpr
      intro c hc
      obtain ⟨d, hd, rfl⟩ := List.mem_map.mp hc
      exact decide_eq_true (asciiChar_of_plain (hfield d hd)).1
    rw [map_cons, cutAtNul]
    by_cases hzero : b = 0
    · rw [if_pos ⟨(asciiChar_of_plain hb).2.1.mpr hzero, hlines⟩,
        takeWhile_cons_of_neg (by simpa using hzero)]
      rfl
    · rw [if_neg fun hcut ↦ hzero ((asciiChar_of_plain hb).2.1.mp hcut.1), ih hfield,
        takeWhile_cons_of_pos (by simpa using hzero), map_cons]

/-- A field of plain bytes that is accepted states the number that is read from it. -/
theorem ustarSize_of_plain (hbinary : ¬ IsBinary field) (hplain : IsPlain field)
    (h : parseOctalField field = .ok n) : UstarSize field n := by
  let blank := fun b ↦ isBlank (asciiChar b)
  let before := field.takeWhile (· ≠ 0)
  let after := field.dropWhile (· ≠ 0)
  let digits := (before.dropWhile blank).rdropWhile blank
  let trail := (before.dropWhile blank).rtakeWhile blank
  have hbefore : ∀ b ∈ before, isOctal b ∨ isFiller b :=
    fun b hb ↦ hplain.1 b (takeWhile_subset _ hb)
  have hcore : ∀ b ∈ before.dropWhile blank, isOctal b ∨ isFiller b :=
    fun b hb ↦ hbefore b (dropWhile_subset _ hb)
  have hfield : field = before.takeWhile blank ++ digits ++ (trail ++ after) := by
    calc field
      _ = before ++ after := takeWhile_append_dropWhile.symm
      _ = before.takeWhile blank ++ before.dropWhile blank ++ after :=
        congrArg (· ++ after) takeWhile_append_dropWhile.symm
      _ = before.takeWhile blank ++ (digits ++ trail) ++ after := by
        rw [rdropWhile_append_rtakeWhile]
      _ = _ := by simp only [append_assoc]
  have hfirst : ¬ 128 ≤ (field.headD 0).toNat := hbinary
  have htext : ((cutAtNul (ascii field)).dropWhile isBlank).rdropWhile isBlank =
      digits.map asciiChar := by
    have hcut : cutAtNul (ascii field) = before.map asciiChar := cutAtNul_of_plain hplain.1
    rw [hcut, dropWhile_map]
    unfold rdropWhile
    rw [← map_reverse, dropWhile_map, ← map_reverse]
    rfl
  unfold parseOctalField at h
  dsimp only at h
  rw [if_neg hfirst, htext] at h
  split at h
  next hdigits =>
    obtain rfl := Except.ok.inj h
    have hdigit : ∀ b ∈ digits, isOctal b ∨ isFiller b :=
      fun b hb ↦ hcore b (( rdropWhile_prefix _ _).subset hb)
    have hvalue : (digits.map asciiChar).foldl
        (fun value c ↦ value * 8 + (c.toNat - '0'.toNat)) 0 = octalValue digits := by
      rw [foldl_map]
      apply foldl_ext
      intro value b hb
      rw [(asciiChar_of_plain (hdigit b hb)).2.2.2.2]
    rw [hvalue, hfield]
    apply UstarSize.octal
    · intro b hb
      have hblank : blank b := mem_takeWhile_imp hb
      exact (asciiChar_of_plain (hbefore b (takeWhile_subset _ hb))).2.2.1.mp hblank
    · intro b hb
      have hc := List.all_eq_true.mp hdigits (asciiChar b) (List.mem_map_of_mem hb)
      exact (asciiChar_of_plain (hdigit b hb)).2.2.2.1.mp (of_decide_eq_true hc)
    · intro b hb
      obtain hb | hb := mem_append.mp hb
      · have hmem : b ∈ before.dropWhile blank := rtakeWhile_suffix _ _ |>.subset hb
        have hblank : blank b := mem_rtakeWhile_imp hb
        rw [(asciiChar_of_plain (hcore b hmem)).2.2.1.mp hblank]
        rfl
      · exact hplain.2 b hb
  · cases h

/-- The fields that state a size are, among the accepted ones, those with the right bytes. -/
theorem ustarSize_iff (hlength : field.length = 12) (h : parseOctalField field = .ok n) :
    (∃ m, UstarSize field m) ↔ IsBinary field ∨ IsPlain field := by
  constructor
  · exact fun ⟨_, hsize⟩ ↦ isPlain_of_ustarSize hsize
  · rintro (hbinary | hplain)
    · exact ⟨n, ustarSize_of_binary hlength hbinary h⟩
    · by_cases hbinary : IsBinary field
      · exact ⟨n, ustarSize_of_binary hlength hbinary h⟩
      · exact ⟨n, ustarSize_of_plain hbinary hplain h⟩

theorem ustarSize_of_accepted (hlength : field.length = 12) (h : parseOctalField field = .ok n)
    (hfield : IsBinary field ∨ IsPlain field) : UstarSize field n := by
  by_cases hbinary : IsBinary field
  · exact ustarSize_of_binary hlength hbinary h
  · exact ustarSize_of_plain hbinary (hfield.resolve_left hbinary) h

/-- A field that states no size, or the size zero. -/
def IsVacant (field : List UInt8) : Prop :=
  (∀ b ∈ field, b = 48 ∨ isFiller b = true) ∨ field.headD 0 = 128 ∧ ∀ b ∈ field.tail, b = 0

instance (field : List UInt8) : Decidable (IsVacant field) := inferInstanceAs (Decidable (_ ∨ _))

theorem octalValue_eq_zero (h : ∀ b ∈ digits, isOctal b) :
    octalValue digits = 0 ↔ ∀ b ∈ digits, b = 48 := by
  have hfold : ∀ value, digits.foldl (fun value b ↦ value * 8 + (b.toNat - 48)) value = 0 ↔
      value = 0 ∧ ∀ b ∈ digits, b = 48 := by
    induction digits with
    | nil => simp
    | cons b digits ih =>
      obtain ⟨hb, hdigits⟩ := forall_mem_cons.mp h
      intro value
      rw [foldl_cons, ih hdigits, forall_mem_cons, ← and_assoc]
      apply and_congr_left
      simp only [isOctal, Bool.and_eq_true, decide_eq_true_eq, UInt8.le_iff_toNat_le,
        UInt8.reduceToNat] at hb
      have hdigit : b = 48 ↔ b.toNat = 48 := UInt8.toNat_inj.symm
      rw [hdigit]
      omega
  exact (hfold 0).trans (and_iff_right rfl)

theorem binaryValue_eq_zero {first : UInt8} (h : 128 ≤ first) :
    binaryValue first rest = 0 ↔ first = 128 ∧ ∀ b ∈ rest, b = 0 := by
  have hfold : ∀ value, rest.foldl (fun value b ↦ value * 256 + b.toNat) value = 0 ↔
      value = 0 ∧ ∀ b ∈ rest, b = 0 := by
    induction rest with
    | nil => simp
    | cons b rest ih =>
      intro value
      rw [foldl_cons, ih, forall_mem_cons, ← and_assoc]
      apply and_congr_left
      have hzero : b = 0 ↔ b.toNat = 0 := UInt8.toNat_inj.symm
      rw [hzero]
      omega
  have hflag : 128 ≤ first.toNat := h
  have hlt := first.toNat_lt
  have hfirst : first = 128 ↔ first.toNat = 128 := UInt8.toNat_inj.symm
  unfold binaryValue
  rw [hfold]
  apply and_congr_left
  rw [hfirst]
  omega

theorem not_isBinary_of_plain (h : ∀ b ∈ field, isOctal b ∨ isFiller b) :
    ¬ IsBinary field := by
  have hlow : ∀ b ∈ ([0, 32, 48, 49, 50, 51, 52, 53, 54, 55] : List UInt8), ¬ 128 ≤ b := by decide +kernel
  cases field with
  | nil => decide
  | cons b field => exact hlow b (mem_of_plain (h b mem_cons_self))

theorem isVacant_iff (h : UstarSize field n) : IsVacant field ↔ n = 0 := by
  cases h with
  | @octal spaces digits filler hblank hoctal hfilled =>
    have hplain := plain_of_octal hblank hoctal hfilled
    have hhead : (spaces ++ digits ++ filler).headD 0 ≠ 128 :=
      fun h ↦ not_isBinary_of_plain hplain (UInt8.le_of_eq h.symm)
    rw [octalValue_eq_zero hoctal]
    constructor
    · rintro (hvacant | ⟨h128, -⟩) b hb
      · have hmem : b ∈ spaces ++ digits ++ filler := by simp [hb]
        apply (hvacant b hmem).resolve_right
        exact not_isFiller_of_isOctal (hoctal b hb)
      · exact absurd h128 hhead
    · intro hzero
      left
      intro b hb
      obtain hb | hb := mem_append.mp hb
      · obtain hb | hb := mem_append.mp hb
        · rw [hblank b hb]
          exact .inr rfl
        · exact .inl (hzero b hb)
      · exact .inr (hfilled b hb)
  | @binary first rest hflag hsign =>
    have hnot : ¬ ∀ b ∈ first :: rest, b = 48 ∨ isFiller b := by
      intro hall
      have hplain : ∀ b ∈ first :: rest, isOctal b ∨ isFiller b := by
        intro b hb
        apply (hall b hb).imp_left
        rintro rfl
        rfl
      exact not_isBinary_of_plain hplain hflag
    rw [binaryValue_eq_zero hflag]
    exact or_iff_right hnot

/-! ## Other readers -/

/-- A reader that takes a field for the size it states, and any other field as it likes. The size
of a directory announces data to some readers and none to others. -/
structure UstarReader where
  size : List UInt8 → Option Nat
  follows : ∀ field n, UstarSize field n → size field = some n
  skipsDirectories : Bool

def UstarReader.next (reader : UstarReader) (header : List UInt8) (dataOffset size : Nat) : Nat :=
  if headerTypeflag header = '5' ∧ reader.skipsDirectories = false then dataOffset
  else nextOffset dataOffset size

/-- The offsets and sizes of the data that a reader finds, up to its end marker. -/
inductive UstarReader.Reads (reader : UstarReader) (bytes : List UInt8) :
    Nat → List (Nat × Nat) → Nat → Prop
  | marker {offset : Nat} (block : (subarray bytes offset (offset + BLOCK)).length = BLOCK)
      (zero : (subarray bytes offset (offset + BLOCK)).all (· = 0) = true) :
    Reads reader bytes offset [] offset
  | entry {offset size stop : Nat} {entries : List (Nat × Nat)}
      (block : (subarray bytes offset (offset + BLOCK)).length = BLOCK)
      (content : (subarray bytes offset (offset + BLOCK)).all (· = 0) = false)
      (read : reader.size (sizeField (subarray bytes offset (offset + BLOCK))) = some size)
      (rest : Reads reader bytes
        (reader.next (subarray bytes offset (offset + BLOCK)) (offset + BLOCK) size) entries stop) :
    Reads reader bytes offset ((offset + BLOCK, size) :: entries) stop

/-- Where the data of a member is, and how much there is. -/
def TarMember.place (member : TarMember) : Nat × Nat := (member.dataOffset, member.size)

/-- Every member has a size field of the format, and all readers find the same members. -/
structure Unambiguous (bytes : List UInt8) (members : List TarMember) (dataEnd : Nat) : Prop where
  fields : ∀ member ∈ members, ∃ n, UstarSize (sizeField (member.header bytes)) n
  readers : ∀ reader : UstarReader,
    reader.Reads bytes 0 (members.map TarMember.place) dataEnd

/-- The bytes of the size field are those of the format, and a directory states no size. -/
structure IsClear (header : List UInt8) : Prop where
  size : IsBinary (sizeField header) ∨ IsPlain (sizeField header)
  directory : headerTypeflag header = '5' → IsVacant (sizeField header)

theorem length_sizeField {header : List UInt8} (h : header.length = BLOCK) :
    (sizeField header).length = 12 := by
  unfold BLOCK at h
  simp [sizeField, subarray, h]

theorem parse_of_tarMember {header : List UInt8}
    (h : tarMember platform maxBytes count header dataOffset = .ok member) :
    parseOctalField (sizeField header) = .ok member.size := by
  obtain ⟨size, hsize, rfl⟩ := tarMember_eq_ok h
  exact hsize

theorem header_of_tarMember
    (h : tarMember platform maxBytes count (subarray bytes offset (offset + BLOCK))
      (offset + BLOCK) = .ok member) :
    member.header bytes = subarray bytes offset (offset + BLOCK) := by
  unfold TarMember.header headerOffset
  rw [dataOffset_of_tarMember h, Nat.add_sub_cancel]

theorem Catalogs.reads (h : Catalogs platform bytes maxBytes offset count result)
    (hresult : result = .ok (members, dataEnd))
    (hclear : ∀ member ∈ members, IsClear (member.header bytes)) (reader : UstarReader) :
    reader.Reads bytes offset (members.map TarMember.place) dataEnd := by
  induction h generalizing members with
  | missing => cases hresult
  | truncated => cases hresult
  | refused => cases hresult
  | marker _ hblock hzero =>
    cases hresult
    exact .marker hblock hzero
  | @member offset count member result hinside hblock hcontent haccepted _ ih =>
    cases result with
    | error e => cases hresult
    | ok catalog =>
      cases hresult
      obtain ⟨hmember, hrest⟩ := forall_mem_cons.mp hclear
      rw [header_of_tarMember haccepted] at hmember
      have hsize : UstarSize (sizeField (subarray bytes offset (offset + BLOCK))) member.size :=
        ustarSize_of_accepted (length_sizeField hblock) (parse_of_tarMember haccepted) hmember.size
      have hnext : reader.next (subarray bytes offset (offset + BLOCK)) (offset + BLOCK)
          member.size = nextOffset (offset + BLOCK) member.size := by
        unfold UstarReader.next
        split
        next hdirectory =>
          rw [(isVacant_iff hsize).mp (hmember.directory hdirectory.1)]
          simp [nextOffset, BLOCK]
        · rfl
      have hreads := ih rfl hrest
      rw [← hnext] at hreads
      have hplace : member.place = (offset + BLOCK, member.size) :=
        Prod.ext (dataOffset_of_tarMember haccepted) rfl
      rw [map_cons, hplace]
      exact .entry hblock hcontent (reader.follows _ _ hsize) hreads

/-- A reader that expects no data after a directory. -/
def literalReader : UstarReader where
  size field :=
    if 128 ≤ field.headD 0 then some (binaryValue (field.headD 0) field.tail)
    else some (octalValue (field.filter isOctal))
  follows field n h := by
    cases h with
    | @octal spaces digits filler hblank hoctal hfilled =>
      have hplain := plain_of_octal hblank hoctal hfilled
      have hhead : ¬ 128 ≤ (spaces ++ digits ++ filler).headD 0 := not_isBinary_of_plain hplain
      have hspaces : spaces.filter isOctal = [] := by
        apply List.filter_eq_nil_iff.mpr
        intro b hb
        rw [hblank b hb]
        decide
      have hfiller : filler.filter isOctal = [] :=
        List.filter_eq_nil_iff.mpr fun b hb hoctal ↦
          not_isFiller_of_isOctal hoctal (hfilled b hb)
      rw [if_neg hhead, List.filter_append, List.filter_append, hspaces, hfiller,
        List.filter_eq_self.mpr hoctal, List.nil_append, List.append_nil]
    | binary hflag => exact if_pos hflag
  skipsDirectories := false

/-- The offset at which the entries of some members begin. -/
def startOf (stop : Nat) : List TarMember → Nat
  | [] => stop
  | member :: _ => member.headerOffset

theorem UstarReader.Reads.start {reader : UstarReader}
    (h : reader.Reads bytes offset (members.map TarMember.place) stop) :
    offset = startOf stop members := by
  cases members with
  | nil =>
    cases h
    rfl
  | cons member members =>
    generalize hentries : (member :: members).map TarMember.place = entries at h
    cases h with
    | marker => cases hentries
    | entry =>
      have hplace := (List.cons.inj hentries).1
      have hoffset : member.dataOffset = offset + BLOCK := congrArg Prod.fst hplace
      change offset = member.dataOffset - BLOCK
      omega

theorem Catalogs.start
    (h : Catalogs platform bytes maxBytes offset count (.ok (members, dataEnd))) :
    offset = startOf dataEnd members := by
  generalize hresult : Except.ok (members, dataEnd) = result at h
  cases h with
  | missing => cases hresult
  | truncated => cases hresult
  | refused => cases hresult
  | marker =>
    cases hresult
    rfl
  | @member _ _ member result _ _ _ haccepted =>
    cases result with
    | error e => cases hresult
    | ok catalog =>
      cases hresult
      have hoffset := dataOffset_of_tarMember haccepted
      change _ = member.dataOffset - BLOCK
      omega

theorem size_of_nextOffset (h : nextOffset offset size = offset) : size = 0 := by
  unfold nextOffset BLOCK at h
  omega

/-- Where such a reader finds the same members, no directory states a size. -/
theorem Catalogs.size_of_directory (h : Catalogs platform bytes maxBytes offset count result)
    (hresult : result = .ok (members, dataEnd))
    (hreads : literalReader.Reads bytes offset (members.map TarMember.place) dataEnd) :
    ∀ member ∈ members, headerTypeflag (member.header bytes) = '5' → member.size = 0 := by
  induction h generalizing members with
  | missing => cases hresult
  | truncated => cases hresult
  | refused => cases hresult
  | marker =>
    cases hresult
    exact fun _ hmem ↦ absurd hmem not_mem_nil
  | @member offset count member result hinside hblock hcontent haccepted hcatalogs ih =>
    cases result with
    | error e => cases hresult
    | ok catalog =>
      cases hresult
      generalize hentries : (member :: catalog.1).map TarMember.place = entries at hreads
      cases hreads with
      | marker => cases hentries
      | @entry _ size _ entries _ _ _ hrest =>
        obtain ⟨hplace, rfl⟩ := List.cons.inj hentries
        have hnext := hrest.start.trans hcatalogs.start.symm
        intro other hmem
        obtain rfl | hmem := mem_cons.mp hmem
        · intro hflag
          rw [header_of_tarMember haccepted] at hflag
          unfold UstarReader.next at hnext
          rw [if_pos ⟨hflag, rfl⟩] at hnext
          exact size_of_nextOffset hnext.symm
        · rw [hnext] at hrest
          exact ih rfl hrest other hmem

theorem Tiles.length_header {start : Nat}
    (h : Tiles platform bytes maxBytes start members dataEnd) (hmem : member ∈ members) :
    (member.header bytes).length = BLOCK := by
  obtain ⟨-, hheader, hdata, hstop⟩ := h.inside member hmem
  have hfits := h.fits
  simp only [TarMember.header, subarray, length_take, length_drop]
  omega

/-- Of the headers that are accepted, those with the bytes of the format state their size in it. All
readers agree on a file exactly if its headers are of this kind and no directory states a size. -/
theorem unambiguous_iff (platform : ArchivePlatform) (maxBytes : Nat) :
    (∀ count header dataOffset member, header.length = BLOCK →
      tarMember platform maxBytes count header dataOffset = .ok member →
      ((∃ n, UstarSize (sizeField header) n) ↔
        IsBinary (sizeField header) ∨ IsPlain (sizeField header))) ∧
    ∀ bytes members dataEnd, catalogTarMembers platform bytes maxBytes = .ok (members, dataEnd) →
      (Unambiguous bytes members dataEnd ↔
        ∀ member ∈ members, IsClear (member.header bytes)) := by
  constructor
  · intro count header dataOffset member hlength h
    exact ustarSize_iff (length_sizeField hlength) (parse_of_tarMember h)
  · intro bytes members dataEnd h
    have hcatalogs := catalogs_iff.mpr h
    have htiles := hcatalogs.tiles (Nat.dvd_zero BLOCK) rfl
    have hsizes : ∀ member ∈ members,
        IsBinary (sizeField (member.header bytes)) ∨ IsPlain (sizeField (member.header bytes)) →
          UstarSize (sizeField (member.header bytes)) member.size := by
      intro member hmem
      obtain ⟨count, hmember⟩ := htiles.headers member hmem
      exact ustarSize_of_accepted (length_sizeField (htiles.length_header hmem))
        (parse_of_tarMember hmember)
    constructor
    · intro hunambiguous member hmem
      obtain ⟨n, hfield⟩ := hunambiguous.fields member hmem
      have hplain := isPlain_of_ustarSize hfield
      apply IsClear.mk hplain
      intro hflag
      have hreads := hunambiguous.readers literalReader
      exact (isVacant_iff (hsizes member hmem hplain)).mpr
        (hcatalogs.size_of_directory rfl hreads member hmem hflag)
    · intro hclear
      constructor
      · exact fun member hmem ↦ ⟨member.size, hsizes member hmem (hclear member hmem).size⟩
      · exact hcatalogs.reads rfl hclear

namespace Sample

set_option maxRecDepth 100000 in
theorem clear_oneByteMember :
    IsClear (oneByteMember.header (oneByteArchive "00000000001")) := by
  constructor
  · decide +kernel
  · decide +kernel

set_option maxRecDepth 100000 in
/-- The last digit has its highest bit set. -/
theorem catalog_ambiguousArchive :
    catalogTarMembers archivePlatform (oneByteArchive "0000000000±") 250000000 =
        .ok ([oneByteMember], 1024) ∧
      ¬ (IsBinary (sizeField (oneByteMember.header (oneByteArchive "0000000000±"))) ∨
        IsPlain (sizeField (oneByteMember.header (oneByteArchive "0000000000±")))) := by
  decide +kernel

end Sample

theorem unambiguous_iff_oneByte :
    Unambiguous (Sample.oneByteArchive "00000000001") [Sample.oneByteMember] 1024 := by
  apply ((unambiguous_iff _ _).2 _ _ _ Sample.catalog_oneByteArchive).mpr
  intro member hmem
  rw [mem_singleton.mp hmem]
  exact Sample.clear_oneByteMember

/-- A digit is accepted that is not one in the tar format. -/
theorem catalogTarMembers_ambiguous : ¬ ∀ platform bytes maxBytes members dataEnd,
    catalogTarMembers platform bytes maxBytes = .ok (members, dataEnd) →
      Unambiguous bytes members dataEnd := by
  intro hclaim
  obtain ⟨hcatalog, hfield⟩ := Sample.catalog_ambiguousArchive
  obtain ⟨n, hsize⟩ := (hclaim _ _ _ _ _ hcatalog).fields _ mem_cons_self
  exact hfield (isPlain_of_ustarSize hsize)

end PrivosCluster.LocalRuntime
