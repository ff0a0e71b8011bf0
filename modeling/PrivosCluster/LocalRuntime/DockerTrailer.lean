import PrivosCluster.LocalRuntime.TarCatalog

/-!
# The trailer for the classic image store

The classic image store of Docker does not know OCI layouts. It gets the members of a verified
archive with one more, a `manifest.json` that names the config and the layers where they are. The
catalog reads what is written here.
-/

namespace PrivosCluster.LocalRuntime

open List

/-! ## Writing -/

/-- `Buffer.from(text)` -/
def utf8Bytes (text : String) : List UInt8 := text.toList.flatMap String.utf8EncodeChar

/-- `header.write(text, offset)`, as far as there is room. -/
def writeAt (header data : List UInt8) (offset : Nat) : List UInt8 :=
  header.take offset ++ data.take (header.length - offset) ++ header.drop (offset + data.length)

/-- `n.toString(8).padStart(width, '0')` -/
def octalText (width n : Nat) : List Char :=
  let digits := Nat.toDigits 8 n
  List.replicate (width - digits.length) '0' ++ digits

/-- The encoding `ascii` of a text. -/
def asciiBytes (text : List Char) : List UInt8 := text.map fun c ↦ UInt8.ofNat c.toNat

/-- The header of one regular file, up to its checksum. -/
def ustarFields (name : String) (size : Nat) : List UInt8 :=
  let header := List.replicate BLOCK 0
  let header := writeAt header (utf8Bytes name) 0
  let header := writeAt header (asciiBytes "0000644\x00".toList) 100
  let header := writeAt header (asciiBytes "0000000\x00".toList) 108
  let header := writeAt header (asciiBytes "0000000\x00".toList) 116
  let header := writeAt header (asciiBytes (octalText 11 size ++ [Char.ofNat 0])) 124
  let header := writeAt header (asciiBytes "00000000000\x00".toList) 136
  let header := writeAt header (asciiBytes "        ".toList) 148
  let header := writeAt header (asciiBytes "0".toList) 156
  let header := writeAt header (asciiBytes "ustar\x00".toList) 257
  writeAt header (asciiBytes "00".toList) 263

def ustarFileHeader (name : String) (size : Nat) : List UInt8 :=
  let header := ustarFields name size
  let sum := header.foldl (fun sum byte ↦ sum + byte.toNat) 0
  writeAt header (asciiBytes (octalText 6 sum ++ [Char.ofNat 0, ' '])) 148

def manifestRecord (configDigest : String) (layerDigests : List String) : List (String × Json) :=
  [("Config", .str (blobMemberName configDigest)), ("RepoTags", .arr []),
    ("Layers", .arr ((layerDigests.map blobMemberName).map .str))]

section

variable (platform : ArchivePlatform)

def manifestText (configDigest : String) (layerDigests : List String) : String :=
  Json.stringify platform.numberText (.arr [.obj (manifestRecord configDigest layerDigests)])

/-- The `manifest.json` of a docker archive. -/
def dockerManifest (configDigest : String) (layerDigests : List String) : List UInt8 :=
  utf8Bytes (manifestText platform configDigest layerDigests)

def dockerArchiveTrailer (configDigest : String) (layerDigests : List String) : List UInt8 :=
  let manifest := dockerManifest platform configDigest layerDigests
  let padding := List.replicate ((BLOCK - manifest.length % BLOCK) % BLOCK) 0
  ustarFileHeader "manifest.json" manifest.length ++ manifest ++ padding ++
    List.replicate (2 * BLOCK) 0

end

/-! ## Reading what was written -/

section

variable {header data : List UInt8} {offset start stop : Nat}

theorem length_writeAt (h : offset ≤ header.length) :
    (writeAt header data offset).length = header.length := by
  simp only [writeAt, length_append, length_take, length_drop]
  omega

theorem subarray_writeAt (h : offset + data.length ≤ header.length) :
    subarray (writeAt header data offset) offset (offset + data.length) = data := by
  have htake : (header.take offset).length = offset := by
    rw [length_take]
    omega
  have hdata : data.take (header.length - offset) = data := take_of_length_le (by omega)
  unfold subarray writeAt
  rw [hdata, append_assoc, drop_append_of_le_length (by omega), drop_of_length_le
    (by omega), nil_append, Nat.add_sub_cancel_left, take_left]

theorem subarray_writeAt_before (h : offset + data.length ≤ header.length) (hstop : stop ≤ offset) :
    subarray (writeAt header data offset) start stop = subarray header start stop := by
  have htake : (header.take offset).length = offset := by
    rw [length_take]
    omega
  unfold writeAt
  rw [append_assoc, subarray_append (by omega)]
  unfold subarray
  rw [drop_take, take_take]
  congr 1
  omega

theorem subarray_writeAt_after (h : offset + data.length ≤ header.length)
    (hstart : offset + data.length ≤ start) :
    subarray (writeAt header data offset) start stop = subarray header start stop := by
  have hdata : data.take (header.length - offset) = data := take_of_length_le (by omega)
  have hlength : (header.take offset ++ data).length = offset + data.length := by
    rw [length_append, length_take]
    omega
  unfold subarray writeAt
  rw [hdata, drop_append, drop_of_length_le (by omega), nil_append,
    drop_drop]
  congr 2
  omega

/-- A write is read back, and it leaves the rest of the block alone. -/
theorem writeAt_block (hlength : header.length = BLOCK) (h : offset + data.length ≤ BLOCK) :
    (writeAt header data offset).length = BLOCK ∧
      subarray (writeAt header data offset) offset (offset + data.length) = data ∧
      ∀ start stop, stop ≤ offset ∨ offset + data.length ≤ start →
        subarray (writeAt header data offset) start stop = subarray header start stop := by
  rw [← hlength] at h
  refine ⟨(length_writeAt (by omega)).trans hlength, subarray_writeAt h, ?_⟩
  rintro start stop (hstop | hstart)
  · exact subarray_writeAt_before h hstop
  · exact subarray_writeAt_after h hstart

end

variable {n width size count : Nat} {c : Char} {text : List Char} {members : List TarMember}
  {digest : String} {numberText : Rat → String} {before : List UInt8}

theorem length_octalText (hwidth : 0 < width) (h : n < 8 ^ width) :
    (octalText width n).length = width := by
  have hdigits := (Nat.length_toDigits_le_iff (by decide : 1 < 8) hwidth).mpr h
  simp only [octalText, length_append, length_replicate]
  omega

theorem length_asciiBytes (text : List Char) : (asciiBytes text).length = text.length :=
  length_map _

/-- What the catalog reads of the header of a regular file. -/
structure IsFileHeader (header nameBytes : List UInt8) (size : Nat) : Prop where
  length : header.length = BLOCK
  name : subarray header 0 100 = nameBytes ++ List.replicate (100 - nameBytes.length) 0
  size : subarray header 124 136 = asciiBytes (octalText 11 size ++ [Char.ofNat 0])
  typeflag : subarray header 156 157 = [48]
  magic : subarray header 257 263 = asciiBytes "ustar\x00".toList
  parent : subarray header 345 500 = List.replicate 155 0

theorem subarray_replicate {start stop : Nat} (h : stop ≤ n) :
    subarray (replicate n (0 : UInt8)) start stop = replicate (stop - start) 0 := by
  unfold subarray
  rw [drop_replicate, take_replicate]
  congr 1
  omega

theorem length_ustarFields (name : String) (size : Nat) :
    (ustarFields name size).length = BLOCK := by
  have hwrite : ∀ {header data : List UInt8} {offset : Nat}, offset ≤ BLOCK →
      header.length = BLOCK → (writeAt header data offset).length = BLOCK :=
    fun hoffset hlength ↦ (length_writeAt (hlength.symm ▸ hoffset)).trans hlength
  repeat apply hwrite (by decide)
  exact length_replicate

theorem foldl_sum_le (bytes : List UInt8) (sum : Nat) :
    bytes.foldl (fun sum byte ↦ sum + byte.toNat) sum ≤ sum + 255 * bytes.length := by
  induction bytes generalizing sum with
  | nil => simp
  | cons byte bytes ih =>
    have hbyte := byte.toNat_lt
    have hrest := ih (sum + byte.toNat)
    rw [foldl_cons, length_cons]
    omega

variable {name : String} {names : List String}

theorem isFileHeader_ustarFileHeader (hname : (utf8Bytes name).length ≤ 100)
    (hsize : size < 8 ^ 11) : IsFileHeader (ustarFileHeader name size) (utf8Bytes name) size := by
  have hsum : (ustarFields name size).foldl (fun sum byte ↦ sum + byte.toNat) 0 < 8 ^ 6 := by
    have hle := foldl_sum_le (ustarFields name size) 0
    rw [length_ustarFields] at hle
    unfold BLOCK at hle
    omega
  have hzero : (replicate BLOCK (0 : UInt8)).length = BLOCK := length_replicate
  have hsizeText : (asciiBytes (octalText 11 size ++ [Char.ofNat 0])).length = 12 := by
    rw [length_asciiBytes, length_append, length_octalText (by decide) hsize]
    rfl
  have hsumText : (asciiBytes (octalText 6
      ((ustarFields name size).foldl (fun sum byte ↦ sum + byte.toNat) 0) ++
        [Char.ofNat 0, ' '])).length = 8 := by
    rw [length_asciiBytes, length_append, length_octalText (by decide) hsum]
    rfl
  have hempty : ∀ start stop, stop ≤ BLOCK →
      subarray (replicate BLOCK 0) start stop = replicate (stop - start) 0 :=
    fun _ _ h ↦ subarray_replicate h
  have hblock : BLOCK = 512 := rfl
  generalize hchecksum : asciiBytes (octalText 6
    ((ustarFields name size).foldl (fun sum byte ↦ sum + byte.toNat) 0) ++
      [Char.ofNat 0, ' ']) = checksum at hsumText
  have hheader : ustarFileHeader name size = writeAt (ustarFields name size) checksum 148 := by
    rw [← hchecksum]
    rfl
  rw [hheader]
  unfold ustarFields
  generalize hsizeData : asciiBytes (octalText 11 size ++ [Char.ofNat 0]) = sizeData at hsizeText ⊢
  generalize hnameData : utf8Bytes name = nameData at hname ⊢
  obtain ⟨hlen₁, hname₁, hsame₁⟩ := @writeAt_block _ nameData 0 hzero (by omega)
  obtain ⟨hlen₂, -, hsame₂⟩ :=
    @writeAt_block _ (asciiBytes "0000644\x00".toList) 100 hlen₁ (by decide)
  obtain ⟨hlen₃, -, hsame₃⟩ :=
    @writeAt_block _ (asciiBytes "0000000\x00".toList) 108 hlen₂ (by decide)
  obtain ⟨hlen₄, -, hsame₄⟩ :=
    @writeAt_block _ (asciiBytes "0000000\x00".toList) 116 hlen₃ (by decide)
  obtain ⟨hlen₅, hsize₅, hsame₅⟩ := @writeAt_block _ sizeData 124 hlen₄ (by omega)
  obtain ⟨hlen₆, -, hsame₆⟩ :=
    @writeAt_block _ (asciiBytes "00000000000\x00".toList) 136 hlen₅ (by decide)
  obtain ⟨hlen₇, -, hsame₇⟩ := @writeAt_block _ (asciiBytes "        ".toList) 148 hlen₆ (by decide)
  obtain ⟨hlen₈, hflag₈, hsame₈⟩ := @writeAt_block _ (asciiBytes "0".toList) 156 hlen₇ (by decide)
  obtain ⟨hlen₉, hmagic₉, hsame₉⟩ :=
    @writeAt_block _ (asciiBytes "ustar\x00".toList) 257 hlen₈ (by decide)
  obtain ⟨hlen₁₀, -, hsame₁₀⟩ := @writeAt_block _ (asciiBytes "00".toList) 263 hlen₉ (by decide)
  obtain ⟨hlen₁₁, -, hsame₁₁⟩ := @writeAt_block _ checksum 148 hlen₁₀ (by omega)
  constructor
  · exact hlen₁₁
  · rw [hsame₁₁ 0 100 (.inl (by decide)), hsame₁₀ 0 100 (.inl (by decide)),
      hsame₉ 0 100 (.inl (by decide)), hsame₈ 0 100 (.inl (by decide)),
      hsame₇ 0 100 (.inl (by decide)), hsame₆ 0 100 (.inl (by decide)),
      hsame₅ 0 100 (.inl (by decide)), hsame₄ 0 100 (.inl (by decide)),
      hsame₃ 0 100 (.inl (by decide)), hsame₂ 0 100 (.inl (by decide)),
      ← subarray_split (Nat.zero_le (0 + nameData.length)) (by omega), hname₁,
      hsame₁ _ _ (.inr le_rfl), hempty _ _ (by decide), Nat.zero_add]
  · rw [hsizeText] at hsize₅
    rw [hsame₁₁ 124 136 (.inl (by decide)), hsame₁₀ 124 136 (.inl (by decide)),
      hsame₉ 124 136 (.inl (by decide)), hsame₈ 124 136 (.inl (by decide)),
      hsame₇ 124 136 (.inl (by decide)), hsame₆ 124 136 (.inl (by decide))]
    rw [hsizeData]
    exact hsize₅
  · rw [hsame₁₁ 156 157 (.inr (by omega)), hsame₁₀ 156 157 (.inl (by decide)),
      hsame₉ 156 157 (.inl (by decide))]
    exact hflag₈
  · rw [hsame₁₁ 257 263 (.inr (by omega)), hsame₁₀ 257 263 (.inl (by decide))]
    exact hmagic₉
  · rw [hsame₁₁ 345 500 (.inr (by omega)), hsame₁₀ 345 500 (.inr (by decide)),
      hsame₉ 345 500 (.inr (by decide)), hsame₈ 345 500 (.inr (by decide)),
      hsame₇ 345 500 (.inr (by decide)), hsame₆ 345 500 (.inr (by decide)),
      hsame₅ 345 500 (.inr (by omega)), hsame₄ 345 500 (.inr (by decide)),
      hsame₃ 345 500 (.inr (by decide)), hsame₂ 345 500 (.inr (by decide)),
      hsame₁ 345 500 (.inr (by omega)), hempty _ _ (by decide)]

/-! ## The header is read back -/

theorem octalText_digits : ∀ c ∈ octalText width n, '0' ≤ c ∧ c ≤ '7' := by
  have hdigit : ∀ d < 8, '0' ≤ Nat.digitChar d ∧ Nat.digitChar d ≤ '7' := by decide
  have hdigits : ∀ n, ∀ c ∈ Nat.toDigits 8 n, '0' ≤ c ∧ c ≤ '7' := by
    intro n
    induction n using Nat.strongRecOn with
    | _ n ih =>
      by_cases h : n < 8
      · rw [Nat.toDigits_of_lt_base h]
        exact fun c hc ↦ mem_singleton.mp hc ▸ hdigit n h
      · have h : 8 ≤ n := Nat.le_of_not_lt h
        rw [Nat.toDigits_of_base_le (by decide) h]
        intro c hc
        obtain hc | hc := mem_append.mp hc
        · exact ih (n / 8) (Nat.div_lt_self (by omega) (by decide)) c hc
        · exact mem_singleton.mp hc ▸ hdigit (n % 8) (Nat.mod_lt _ (by decide))
  intro c hc
  obtain hc | hc := mem_append.mp hc
  · rw [(mem_replicate.mp hc).2]
    decide
  · exact hdigits n c hc

theorem foldl_octalText :
    (octalText width n).foldl (fun value c ↦ value * 8 + (c.toNat - '0'.toNat)) 0 = n := by
  have hfold : ∀ (digits : List Char) (value : Nat),
      digits.foldl (fun value c ↦ value * 8 + (c.toNat - '0'.toNat)) value =
        Nat.ofDigitChars 8 digits value := by
    intro digits value
    congr 1
    funext value c
    rw [Nat.mul_comm]
  rw [hfold]
  unfold octalText
  rw [Nat.ofDigitChars_append, Nat.ofDigitChars_replicate_zero, Nat.mul_zero,
    Nat.ofDigitChars_toDigits (by decide) (by decide)]

theorem toNat_ofNat_char (h : c.toNat < 128) : (UInt8.ofNat c.toNat).toNat = c.toNat := by
  rw [UInt8.toNat_ofNat']
  omega

theorem ascii_asciiBytes (h : ∀ c ∈ text, c.toNat < 128) : ascii (asciiBytes text) = text := by
  unfold ascii asciiBytes
  rw [List.map_map]
  calc text.map ((fun b : UInt8 ↦ Char.ofNat (b.toNat % 128)) ∘ fun c ↦ UInt8.ofNat c.toNat)
    _ = text.map id := by
      apply map_congr_left
      intro c hc
      have hlow := h c hc
      rw [Function.comp_apply, toNat_ofNat_char hlow, Nat.mod_eq_of_lt hlow, Char.ofNat_toNat, id]
    _ = text := List.map_id text

theorem cutAtNul_append (h : Char.ofNat 0 ∉ text) : cutAtNul (text ++ [Char.ofNat 0]) = text := by
  induction text with
  | nil => rfl
  | cons c text ih =>
    rw [mem_cons, not_or] at h
    rw [cons_append, cutAtNul, if_neg fun hcut ↦ h.1 hcut.1.symm, ih h.2]

theorem isBlank_of_octal (h : '0' ≤ c ∧ c ≤ '7') : ¬ isBlank c = true := by
  have hlow : 48 ≤ c.toNat := h.1
  intro hblank
  simp only [isBlank, Bool.or_eq_true, Bool.and_eq_true, decide_eq_true_eq] at hblank
  obtain rfl | hblank := hblank
  · exact absurd hlow (by decide)
  · omega

/-- A size that is written is read back. -/
theorem parseOctalField_octal :
    parseOctalField (asciiBytes (octalText 11 size ++ [Char.ofNat 0])) = .ok size := by
  have hdigits : ∀ c ∈ octalText 11 size, '0' ≤ c ∧ c ≤ '7' := octalText_digits
  have hlow : ∀ c ∈ octalText 11 size ++ [Char.ofNat 0], c.toNat < 128 := by
    intro c hc
    obtain hc | hc := mem_append.mp hc
    · have hseven : c.toNat ≤ 55 := (hdigits c hc).2
      omega
    · rw [mem_singleton.mp hc]
      decide
  have hfirst : ¬ 128 ≤ ((asciiBytes (octalText 11 size ++ [Char.ofNat 0])).headD 0).toNat := by
    cases htext : octalText 11 size ++ [Char.ofNat 0] with
    | nil => decide
    | cons c text =>
      have hc := hlow c (htext ▸ mem_cons_self)
      simp only [asciiBytes, map_cons, headD_cons, toNat_ofNat_char hc]
      omega
  have hnul : Char.ofNat 0 ∉ octalText 11 size :=
    fun hmem ↦ absurd (hdigits _ hmem).1 (by decide)
  have hfront : (octalText 11 size).dropWhile isBlank = octalText 11 size := by
    apply dropWhile_eq_self_iff.mpr
    intro hpos
    exact isBlank_of_octal (hdigits _ (getElem_mem hpos))
  have hback : (octalText 11 size).rdropWhile isBlank = octalText 11 size := by
    apply rdropWhile_eq_self_iff.mpr
    intro hne
    exact isBlank_of_octal (hdigits _ (getLast_mem hne))
  have hall : (octalText 11 size).all (fun c ↦ decide ('0' ≤ c ∧ c ≤ '7')) = true :=
    List.all_eq_true.mpr fun c hc ↦ decide_eq_true (hdigits c hc)
  unfold parseOctalField
  rw [if_neg hfirst, ascii_asciiBytes hlow, cutAtNul_append hnul, hfront, hback, if_pos hall,
    foldl_octalText]

/-! ## The spliced file -/

variable {platform : ArchivePlatform} {bytes : List UInt8} {maxBytes : Nat}

/-- What `Buffer.toString` does with the bytes of ASCII characters. -/
def DecodesAscii (platform : ArchivePlatform) : Prop :=
  ∀ text : String, (∀ c ∈ text.toList, c.toNat < 128) →
    platform.text (asciiBytes text.toList) = text

theorem utf8EncodeChar_ascii (h : c.toNat < 128) :
    String.utf8EncodeChar c = [UInt8.ofNat c.toNat] := by
  have hval : c.val.toNat < 128 := h
  fun_cases String.utf8EncodeChar
  case case1 => rfl
  all_goals omega

theorem utf8Bytes_ascii {text : String} (h : ∀ c ∈ text.toList, c.toNat < 128) :
    utf8Bytes text = asciiBytes text.toList := by
  unfold utf8Bytes asciiBytes
  generalize text.toList = chars at h
  induction chars with
  | nil => rfl
  | cons c chars ih =>
    obtain ⟨hc, hchars⟩ := forall_mem_cons.mp h
    rw [flatMap_cons, utf8EncodeChar_ascii hc, ih hchars, map_cons, singleton_append]

/-- The header of the new member is accepted. -/
theorem tarMember_ustarFileHeader (htext : DecodesAscii platform) {dataOffset : Nat}
    (hsize : size < 8 ^ 11) (hcount : count < MAX_ARCHIVE_MEMBERS) (hmax : size ≤ maxBytes) :
    tarMember platform maxBytes count (ustarFileHeader "manifest.json" size) dataOffset =
      .ok { name := "manifest.json", size, isFile := true, isDir := false, dataOffset } := by
  have hshort : (utf8Bytes "manifest.json").length ≤ 100 := by
    decide
  have hheader := isFileHeader_ustarFileHeader hshort hsize
  generalize ustarFileHeader "manifest.json" size = header at hheader
  have hmagic : headerMagic header = "ustar\x00".toList := by
    unfold headerMagic
    rw [hheader.magic]
    decide
  have hflag : headerTypeflag header = '0' := by
    have hgetD : header.getD 156 0 = 48 := by
      have hread := congrArg (fun read : List UInt8 ↦ read.getD 0 0) hheader.typeflag
      simpa [subarray] using hread
    unfold headerTypeflag
    rw [hgetD]
    rfl
  have hempty : fieldString platform (subarray header 345 500) = "" := by
    rw [hheader.parent]
    exact htext "" (all_iff_forall_prop.mp rfl)
  have hraw : fieldString platform (subarray header 0 100) = "manifest.json" := by
    have hread : (asciiBytes "manifest.json".toList ++ replicate 87 (0 : UInt8)).takeWhile
        (· ≠ 0) = asciiBytes "manifest.json".toList := by decide
    rw [hheader.name]
    exact (congrArg platform.text hread).trans (htext "manifest.json" (all_iff_forall_prop.mp rfl))
  have hnamed : headerName platform header = "manifest.json" := by
    unfold headerName
    rw [hempty, hraw]
    rfl
  have hsized : headerSize header = .ok size := by
    unfold headerSize
    rw [hheader.size]
    exact parseOctalField_octal
  unfold tarMember
  rw [hmagic, hflag, hnamed, hsized]
  simp only [↓refuse_bind, bind_eq_ok]
  refine ⟨by decide, by decide, size, rfl, by decide, Nat.not_le.mpr hcount, by decide, ?_, ?_⟩
  · exact fun h ↦ absurd h.2 (Nat.not_lt.mpr hmax)
  · rfl

/-! ### The members before it -/

/-- The rounds go through the same members on a file that begins in the same way. -/
theorem Catalogs.splice {offset dataEnd : Nat} {longer : List UInt8}
    {result : Except ArchiveError (List TarMember × Nat)}
    (h : Catalogs platform bytes maxBytes offset count result)
    (hresult : result = .ok (members, dataEnd))
    (hsame : ∀ start stop, stop ≤ dataEnd → subarray longer start stop = subarray bytes start stop)
    (hlonger : dataEnd ≤ longer.length) {more : List TarMember} {stop : Nat}
    (hrest : Catalogs platform longer maxBytes dataEnd (count + members.length)
      (.ok (more, stop))) :
    Catalogs platform longer maxBytes offset count (.ok (members ++ more, stop)) := by
  induction h generalizing members with
  | missing => cases hresult
  | truncated => cases hresult
  | refused => cases hresult
  | marker =>
    cases hresult
    exact hrest
  | @member offset count member result hinside hblock hcontent haccepted hcatalogs ih =>
    cases result with
    | error e => cases hresult
    | ok catalog =>
      cases hresult
      have hnext := Nat.le_of_add_right_le (hcatalogs.le rfl)
      have hheader := le_nextOffset (offset + BLOCK) member.size
      have hread := hsame offset (offset + BLOCK) (by omega)
      have hcount : count + (member :: catalog.1).length = count + 1 + catalog.1.length := by
        rw [length_cons]
        omega
      rw [hcount] at hrest
      have hspliced := ih rfl hrest
      rw [← hread] at hblock hcontent haccepted
      have hlater := lt_nextOffset offset member.size
      have hoffset : offset < longer.length := by omega
      exact Catalogs.member hoffset hblock hcontent haccepted hspliced

/-! ### The manifest -/

theorem layerDigests_nodup {expectedDigest : String} {verified : VerifiedOciArchive}
    (h : verifyOciArchive platform bytes expectedDigest size maxBytes = .ok verified) :
    verified.layerDigests.Nodup := by
  unfold verifyOciArchive at h
  simp only [↓refuse_bind, bind_eq_ok] at h
  obtain ⟨-, -, _, -, -, layoutMember, -, indexMember, -, layoutBytes, -, layout, -, -, indexBytes,
    -, index, -, manifestValue, -, manifest, -, manifestMember, -, manifestBytes, -, manifestJson,
    -, parts, -, config, -, layers, -, hnodup, configMember, -, configBytes, -, imageConfig, -, -,
    -, -, hresult⟩ := h
  obtain rfl := Except.ok.inj hresult
  exact not_not.mp hnodup

/-- A text that is written as it is between quotes, one byte for each character. -/
def IsPlainText (text : String) : Prop :=
  ∀ c ∈ text.toList, Json.escapeChar c = [c] ∧ c.toNat < 128

theorem escapeChar_of_lowerHex (h : Schema.isLowerHex c = true) :
    Json.escapeChar c = [c] ∧ c.toNat < 128 := by
  have hrange : 48 ≤ c.toNat ∧ c.toNat ≤ 57 ∨ 97 ≤ c.toNat ∧ c.toNat ≤ 102 := by
    simp only [Schema.isLowerHex, Char.isDigit, Bool.or_eq_true, Bool.and_eq_true,
      decide_eq_true_eq] at h
    obtain h | h := h
    · exact .inl h
    · exact .inr h
  have hplain : c ≠ '"' ∧ c ≠ '\\' ∧ c ≠ '\n' ∧ c ≠ '\r' ∧ c ≠ '\t' := by
    refine ⟨?_, ?_, ?_, ?_, ?_⟩ <;> rintro rfl <;> revert hrange <;> decide
  constructor
  · unfold Json.escapeChar
    split
    · exact absurd rfl hplain.1
    · exact absurd rfl hplain.2.1
    · exact absurd rfl hplain.2.2.1
    · exact absurd rfl hplain.2.2.2.1
    · exact absurd rfl hplain.2.2.2.2
    · rw [if_neg (by omega), if_neg (by omega), if_neg (by omega)]
  · omega

theorem toList_blobMemberName (digest : String) :
    (blobMemberName digest).toList = "blobs/sha256/".toList ++ digest.toList.drop 7 := by
  unfold blobMemberName
  rw [String.toList_append]
  exact congrArg _ String.toList_ofList

/-- The name of a blob, of which there are 77 characters. -/
theorem blobMemberName_plain (h : Schema.isDigest digest = true) :
    IsPlainText (blobMemberName digest) ∧ (blobMemberName digest).toList.length = 77 := by
  simp only [Schema.isDigest, Bool.and_eq_true, beq_iff_eq] at h
  obtain ⟨⟨-, hlength⟩, hhex⟩ := h
  have hfolder : ∀ c ∈ "blobs/sha256/".toList, Json.escapeChar c = [c] ∧ c.toNat < 128 :=
    all_iff_forall_prop.mp rfl
  unfold IsPlainText
  rw [toList_blobMemberName]
  constructor
  · intro c hc
    obtain hc | hc := mem_append.mp hc
    · exact hfolder c hc
    · exact escapeChar_of_lowerHex (List.all_eq_true.mp hhex c hc)
  · rw [length_append, hlength]
    rfl

theorem blobMemberName_injective {digest' : String} (h : Schema.isDigest digest = true)
    (h' : Schema.isDigest digest' = true) (heq : blobMemberName digest = blobMemberName digest') :
    digest = digest' := by
  simp only [Schema.isDigest, Bool.and_eq_true, beq_iff_eq] at h h'
  have htail := congrArg String.toList heq
  rw [toList_blobMemberName, toList_blobMemberName] at htail
  have hdrop := append_cancel_left htail
  apply String.toList_inj.mp
  rw [← take_append_drop 7 digest.toList, ← take_append_drop 7 digest'.toList, hdrop,
    h.1.1, h'.1.1]

theorem quoteChars_plain {text : String} (h : IsPlainText text) :
    Json.quoteChars text = '"' :: text.toList ++ ['"'] := by
  have hsame : ∀ chars : List Char, (∀ c ∈ chars, Json.escapeChar c = [c] ∧ c.toNat < 128) →
      chars.flatMap Json.escapeChar = chars := by
    intro chars hchars
    induction chars with
    | nil => rfl
    | cons c chars ih =>
      obtain ⟨hc, hrest⟩ := forall_mem_cons.mp hchars
      rw [flatMap_cons, hc.1, ih hrest, singleton_append]
  unfold Json.quoteChars
  rw [hsame _ h]

/-- The names of blobs in an array, each with its quotes and at most one comma. -/
theorem itemChars_plain (h : ∀ name ∈ names, IsPlainText name ∧ name.toList.length = 77) :
    (∀ c ∈ Json.itemChars numberText (names.map .str), c.toNat < 128) ∧
      (Json.itemChars numberText (names.map .str)).length ≤ 80 * names.length := by
  induction names with
  | nil => simp [Json.itemChars]
  | cons name names ih =>
    obtain ⟨⟨hplain, hlength⟩, hnames⟩ := forall_mem_cons.mp h
    obtain ⟨hchars, hbound⟩ := ih hnames
    have hname : ∀ c ∈ Json.textChars numberText (.str name), c.toNat < 128 := by
      rw [Json.textChars, quoteChars_plain hplain]
      intro c hc
      obtain hc | hc := mem_append.mp hc
      · obtain rfl | hc := mem_cons.mp hc
        · decide
        · exact (hplain c hc).2
      · rw [mem_singleton.mp hc]
        decide
    have hquoted : (Json.textChars numberText (.str name)).length = 79 := by
      rw [Json.textChars, quoteChars_plain hplain]
      simp [hlength]
    rw [map_cons, Json.itemChars_cons]
    cases names with
    | nil =>
      simp only [map_nil, append_nil]
      exact ⟨hname, hquoted.trans_le (by simp)⟩
    | cons next names =>
      simp only [map_cons] at hchars hbound ⊢
      constructor
      · intro c hc
        obtain hc | hc := mem_append.mp hc
        · exact hname c hc
        · obtain rfl | hc := mem_cons.mp hc
          · decide
          · exact hchars c hc
      · rw [length_append]
        simp only [length_cons] at hbound ⊢
        omega

/-- The text of the manifest is written with ASCII characters, and is short. -/
theorem dockerManifest_plain (hname : IsPlainText name ∧ name.toList.length = 77)
    (hnames : ∀ name ∈ names, IsPlainText name ∧ name.toList.length = 77) :
    let text := Json.stringify numberText (.arr [.obj
      [("Config", .str name), ("RepoTags", .arr []), ("Layers", .arr (names.map .str))]])
    (∀ c ∈ text.toList, c.toNat < 128) ∧ text.toList.length ≤ 128 + 80 * names.length := by
  intro text
  have hconfig : Json.quoteChars "Config" = "\"Config\"".toList := by decide
  have htags : Json.quoteChars "RepoTags" = "\"RepoTags\"".toList := by decide
  have hlayers : Json.quoteChars "Layers" = "\"Layers\"".toList := by decide
  have htext : Json.textChars numberText (.arr [.obj
      [("Config", .str name), ("RepoTags", .arr []), ("Layers", .arr (names.map .str))]]) =
      "[\x7b\"Config\":\"".toList ++ (name.toList ++
        ("\",\"RepoTags\":[],\"Layers\":[".toList ++
          (Json.itemChars numberText (names.map .str) ++ "]\x7d]".toList))) := by
    simp only [Json.textChars, Json.itemChars, Json.memberChars, quoteChars_plain hname.1, hconfig,
      htags, hlayers, append_assoc, cons_append, nil_append]
    rfl
  have hread : text.toList = _ := String.toList_ofList.trans htext
  obtain ⟨hchars, hlength⟩ := @itemChars_plain numberText names hnames
  rw [hread]
  constructor
  · have hopen : ∀ c ∈ "[\x7b\"Config\":\"".toList, c.toNat < 128 := all_iff_forall_prop.mp rfl
    have htags : ∀ c ∈ "\",\"RepoTags\":[],\"Layers\":[".toList, c.toNat < 128 :=
      all_iff_forall_prop.mp rfl
    have hclose : ∀ c ∈ "]\x7d]".toList, c.toNat < 128 := all_iff_forall_prop.mp rfl
    intro c hc
    obtain hc | hc := mem_append.mp hc
    · exact hopen c hc
    obtain hc | hc := mem_append.mp hc
    · exact (hname.1 c hc).2
    obtain hc | hc := mem_append.mp hc
    · exact htags c hc
    obtain hc | hc := mem_append.mp hc
    · exact hchars c hc
    · exact hclose c hc
  · have hopen : "[\x7b\"Config\":\"".toList.length = 12 := by decide
    have htags : "\",\"RepoTags\":[],\"Layers\":[".toList.length = 26 := by decide
    have hclose : "]\x7d]".toList.length = 3 := by decide
    rw [length_append, length_append, length_append, length_append]
    omega

/-! ### The whole file -/

/-- The stream that is loaded: the members, and the trailer. -/
def loadedArchive (platform : ArchivePlatform) (bytes : List UInt8)
    (verified : VerifiedOciArchive) : List UInt8 :=
  bytes.take verified.archiveDataEnd ++
    dockerArchiveTrailer platform verified.configDigest verified.layerDigests

theorem subarray_middle {middle after : List UInt8} {start stop : Nat}
    (hstart : before.length = start) (hstop : start + middle.length = stop) :
    subarray (before ++ (middle ++ after)) start stop = middle := by
  unfold subarray
  rw [← hstart, drop_left, take_append_of_le_length (by omega),
    take_of_length_le (by omega)]

theorem nextOffset_padding (offset size : Nat) :
    nextOffset offset size = offset + size + (BLOCK - size % BLOCK) % BLOCK := by
  unfold nextOffset BLOCK
  omega

/-- The manifest as a member, with its header at `offset`. -/
def manifestMember (offset : Nat) (manifest : List UInt8) : TarMember where
  name := "manifest.json"
  size := manifest.length
  isFile := true
  isDir := false
  dataOffset := offset + BLOCK

variable {layerDigests : List String} {configDigest : String}

/-- After the members the catalog finds the manifest and the end marker. -/
theorem catalogs_trailer (htext : DecodesAscii platform)
    (hsize : (dockerManifest platform configDigest layerDigests).length < 8 ^ 11)
    (hcount : count < MAX_ARCHIVE_MEMBERS)
    (hmax : (dockerManifest platform configDigest layerDigests).length ≤ maxBytes) :
    Catalogs platform (before ++ dockerArchiveTrailer platform configDigest layerDigests) maxBytes
      before.length count
      (.ok ([manifestMember before.length (dockerManifest platform configDigest layerDigests)],
        nextOffset (before.length + BLOCK)
          (dockerManifest platform configDigest layerDigests).length)) := by
  unfold dockerArchiveTrailer
  generalize dockerManifest platform configDigest layerDigests = manifest at hsize hmax ⊢
  dsimp only
  have hmember : tarMember platform maxBytes count
      (ustarFileHeader "manifest.json" manifest.length) (before.length + BLOCK) = _ :=
    tarMember_ustarFileHeader htext hsize hcount hmax
  have hshort : (utf8Bytes "manifest.json").length ≤ 100 := by
    decide
  have hheader := isFileHeader_ustarFileHeader hshort hsize
  generalize ustarFileHeader "manifest.json" manifest.length = header at hmember hheader ⊢
  generalize hpadding : replicate ((BLOCK - manifest.length % BLOCK) % BLOCK) (0 : UInt8) =
    padding
  have hpaddingLength : padding.length = (BLOCK - manifest.length % BLOCK) % BLOCK := by
    rw [← hpadding, length_replicate]
  have hnext : (before ++ header ++ manifest ++ padding).length =
      nextOffset (before.length + BLOCK) manifest.length := by
    rw [nextOffset_padding, length_append, length_append, length_append,
      hheader.length, hpaddingLength]
  have hsplit : before ++ (header ++ manifest ++ padding ++ replicate (2 * BLOCK) 0) =
      before ++ header ++ manifest ++ padding ++
        (replicate BLOCK 0 ++ replicate BLOCK 0) := by
    rw [replicate_append_replicate, ← Nat.two_mul]
    simp only [append_assoc]
  have hfirst : subarray (before ++ (header ++ manifest ++ padding ++
      replicate (2 * BLOCK) 0)) before.length (before.length + BLOCK) = header := by
    rw [append_assoc, append_assoc]
    exact subarray_middle rfl (by rw [hheader.length])
  have hlast : subarray (before ++ (header ++ manifest ++ padding ++
      replicate (2 * BLOCK) 0)) (nextOffset (before.length + BLOCK) manifest.length)
      (nextOffset (before.length + BLOCK) manifest.length + BLOCK) = replicate BLOCK 0 := by
    rw [hsplit]
    exact subarray_middle hnext (by rw [length_replicate])
  generalize before ++ (header ++ manifest ++ padding ++ replicate (2 * BLOCK) 0) = file
    at hfirst hlast ⊢
  have hlength : nextOffset (before.length + BLOCK) manifest.length + BLOCK ≤ file.length :=
    add_le_of_block (by rw [hlast, length_replicate])
  have hbefore := le_nextOffset (before.length + BLOCK) manifest.length
  have hblock : 0 < BLOCK := by decide
  have hcontent : header.all (· = 0) = false := by
    apply Bool.eq_false_of_not_eq_true
    intro hall
    have hmem : (48 : UInt8) ∈ subarray header 156 157 := by
      rw [hheader.typeflag]
      exact mem_cons_self
    have hheader := mem_of_mem_drop (mem_of_mem_take hmem)
    exact absurd (List.all_eq_true.mp hall 48 hheader) (by decide)
  rw [← hfirst] at hmember hcontent
  have hmarker : Catalogs platform file maxBytes
      (nextOffset (before.length + BLOCK) manifest.length) (count + 1)
      (.ok ([], nextOffset (before.length + BLOCK) manifest.length)) := by
    apply Catalogs.marker (by omega)
    · rw [hlast, length_replicate]
    · rw [hlast, all_replicate]
      rfl
  exact Catalogs.member (by omega) (by rw [hfirst, hheader.length]) hcontent hmember hmarker

theorem manifest_of_trailer :
    memberBytes (before ++ dockerArchiveTrailer platform configDigest layerDigests)
      (manifestMember before.length (dockerManifest platform configDigest layerDigests)) =
        dockerManifest platform configDigest layerDigests := by
  unfold dockerArchiveTrailer memberBytes manifestMember
  generalize dockerManifest platform configDigest layerDigests = manifest
  have hheader : (ustarFileHeader "manifest.json" manifest.length).length = BLOCK := by
    unfold ustarFileHeader
    rw [length_writeAt (by rw [length_ustarFields]; decide), length_ustarFields]
  rw [append_assoc, append_assoc, ← append_assoc]
  apply subarray_middle _ rfl
  rw [length_append, hheader]

/-- The manifest of verified digests is a short text in ASCII. -/
theorem dockerManifest_digests
    (h : ∀ digest ∈ configDigest :: layerDigests, Schema.isDigest digest = true) :
    (∀ c ∈ (manifestText platform configDigest layerDigests).toList, c.toNat < 128) ∧
    dockerManifest platform configDigest layerDigests =
      asciiBytes (manifestText platform configDigest layerDigests).toList ∧
    (dockerManifest platform configDigest layerDigests).length ≤ 128 + 80 * layerDigests.length := by
  obtain ⟨hconfig, hlayers⟩ := forall_mem_cons.mp h
  have hnames : ∀ name ∈ layerDigests.map blobMemberName,
      IsPlainText name ∧ name.toList.length = 77 := by
    intro name hname
    obtain ⟨digest, hdigest, rfl⟩ := List.mem_map.mp hname
    exact blobMemberName_plain (hlayers digest hdigest)
  obtain ⟨hascii, hlength⟩ := @dockerManifest_plain platform.numberText _ _
    (blobMemberName_plain hconfig) hnames
  have hbytes : dockerManifest platform configDigest layerDigests =
      asciiBytes (manifestText platform configDigest layerDigests).toList := utf8Bytes_ascii hascii
  refine ⟨hascii, hbytes, ?_⟩
  rw [hbytes, length_asciiBytes]
  rw [length_map] at hlength
  exact hlength

theorem parse_manifestText :
    Json.parse platform.number (manifestText platform configDigest layerDigests) =
      some (.arr [.obj (manifestRecord configDigest layerDigests)]) := by
  have hnames : ((manifestRecord configDigest layerDigests).map Prod.fst).Nodup := by
    simp [manifestRecord]
  have hvalues : Json.TextualMembers (manifestRecord configDigest layerDigests) :=
    ⟨trivial, trivial, Json.textual_texts _, trivial⟩
  exact Json.parse_textual ⟨⟨hnames, hvalues⟩, trivial⟩

/-- The digests of an accepted archive are those of blobs among its members. -/
theorem blobs_of_checked {manifest config : Descriptor} {layers : List Descriptor}
    (h : Checked platform bytes members manifest config layers) :
    ∀ digest ∈ config.digest :: layers.map (·.digest), Schema.isDigest digest = true ∧
      ∃ member ∈ members, member.name = blobMemberName digest ∧ member.isFile = true ∧
        sha256Digest platform (memberBytes bytes member) = digest := by
  obtain ⟨hconfigDigest, hlayerDigests⟩ :=
    forall_mem_cons.mp (forall_mem_cons.mp h.digests).2
  intro digest hdigest
  obtain rfl | hdigest := mem_cons.mp hdigest
  · obtain ⟨member, hmem, hname, hfile, hblob⟩ := h.configBlob
    exact ⟨hconfigDigest, member, hmem, hname, hfile, hblob.2⟩
  · obtain ⟨layer, hlayer, rfl⟩ := List.mem_map.mp hdigest
    obtain ⟨member, hmem, hname, hfile, hblob⟩ := h.layerBlobs layer hlayer
    exact ⟨hlayerDigests layer hlayer, member, hmem, hname, hfile, hblob.2⟩

/-- There are no more layers than members. -/
theorem layers_le_members {digests : List String} (hnodup : digests.Nodup)
    (h : ∀ digest ∈ digests, Schema.isDigest digest = true ∧
      ∃ member ∈ members, member.name = blobMemberName digest) :
    digests.length ≤ members.length := by
  have hnames : (digests.map blobMemberName).Nodup := by
    apply List.Nodup.map_on _ hnodup
    intro digest hdigest digest' hdigest' heq
    exact blobMemberName_injective (h digest hdigest).1 (h digest' hdigest').1 heq
  have hsubset : digests.map blobMemberName ⊆ members.map (·.name) := by
    intro name hname
    obtain ⟨digest, hdigest, rfl⟩ := List.mem_map.mp hname
    obtain ⟨-, member, hmem, hmember⟩ := h digest hdigest
    exact List.mem_map.mpr ⟨member, hmem, hmember⟩
  have hle := (hnames.subperm hsubset).length_le
  rwa [length_map, length_map] at hle

/-- A verified archive with its trailer has the members of the archive and a manifest that names
the config and the layers among them. -/
theorem loadedArchive_catalog (htext : DecodesAscii platform) {expectedDigest : String} {size : Nat}
    {verified : VerifiedOciArchive}
    (h : verifyOciArchive platform bytes expectedDigest size maxBytes = .ok verified) :
    ∃ members, catalogTarMembers platform bytes maxBytes = .ok (members, verified.archiveDataEnd) ∧
      (members.length < MAX_ARCHIVE_MEMBERS → ∃ manifest record stop,
        catalogTarMembers platform (loadedArchive platform bytes verified) maxBytes =
          .ok (members ++ [manifest], stop) ∧
        manifest.name = "manifest.json" ∧ manifest.isFile = true ∧ manifest.isDir = false ∧
        Json.parse platform.number
          (platform.text (memberBytes (loadedArchive platform bytes verified) manifest)) =
            some (.arr [.obj record]) ∧
        record.lookup "Config" = some (.str (blobMemberName verified.configDigest)) ∧
        record.lookup "Layers" =
          some (.arr (verified.layerDigests.map fun digest ↦ .str (blobMemberName digest))) ∧
        ∀ digest ∈ verified.configDigest :: verified.layerDigests, ∃ member ∈ members,
          member.name = blobMemberName digest ∧ member.isFile = true ∧
          sha256Digest platform (memberBytes (loadedArchive platform bytes verified) member) =
            digest) := by
  have hnodup := layerDigests_nodup h
  obtain ⟨members, manifest, config, layers, hcatalog, hchecked, -, hconfig, hlayers, -⟩ :=
    verifyOciArchive_eq_ok h
  have hlength := length_of_accepted h
  refine ⟨members, hcatalog, ?_⟩
  intro hcount
  have hcatalogs := catalogs_iff.mpr hcatalog
  have htiles := hcatalogs.tiles (Nat.dvd_zero BLOCK) rfl
  have hblobs := blobs_of_checked hchecked
  rw [← hconfig, ← hlayers] at hblobs
  have hlayerCount : verified.layerDigests.length ≤ members.length := by
    apply layers_le_members hnodup
    intro digest hdigest
    obtain ⟨hvalid, member, hmem, hname, -⟩ := hblobs digest (mem_cons_of_mem _ hdigest)
    exact ⟨hvalid, member, hmem, hname⟩
  obtain ⟨hascii, hbytes, hmanifestLength⟩ := @dockerManifest_digests platform _ _
    fun digest hdigest ↦ (hblobs digest hdigest).1
  have hblocks := hcatalogs.le rfl
  have hfits := htiles.fits
  have hmax : (dockerManifest platform verified.configDigest verified.layerDigests).length ≤
      maxBytes := by
    unfold BLOCK at hblocks hfits
    omega
  have hsmall : (dockerManifest platform verified.configDigest verified.layerDigests).length <
      8 ^ 11 := by
    unfold MAX_ARCHIVE_MEMBERS at hcount
    omega
  have hbefore : (bytes.take verified.archiveDataEnd).length = verified.archiveDataEnd := by
    rw [length_take]
    omega
  have hsame : ∀ start stop, stop ≤ verified.archiveDataEnd →
      subarray (loadedArchive platform bytes verified) start stop = subarray bytes start stop := by
    intro start stop hstop
    have hmin : min (stop - start) (verified.archiveDataEnd - start) = stop - start := by omega
    unfold loadedArchive
    rw [subarray_append (by omega)]
    unfold subarray
    rw [drop_take, take_take, hmin]
  have hroom : 0 + members.length < MAX_ARCHIVE_MEMBERS := by omega
  have htrailer : Catalogs platform (loadedArchive platform bytes verified) maxBytes
      (bytes.take verified.archiveDataEnd).length (0 + members.length) _ :=
    catalogs_trailer htext hsmall hroom hmax
  have hread : memberBytes (loadedArchive platform bytes verified)
      (manifestMember (bytes.take verified.archiveDataEnd).length
        (dockerManifest platform verified.configDigest verified.layerDigests)) =
      dockerManifest platform verified.configDigest verified.layerDigests := manifest_of_trailer
  rw [hbefore] at htrailer hread
  have hlonger : verified.archiveDataEnd ≤ (loadedArchive platform bytes verified).length := by
    unfold loadedArchive
    rw [length_append, hbefore]
    exact Nat.le_add_right _ _
  have hspliced := hcatalogs.splice rfl hsame hlonger htrailer
  refine ⟨_, manifestRecord verified.configDigest verified.layerDigests, _,
    catalogs_iff.mp hspliced, rfl, rfl, rfl, ?_, rfl, ?_, ?_⟩
  · rw [hread, hbytes, htext _ hascii]
    exact parse_manifestText
  · exact congrArg (fun names ↦ some (Json.arr names)) (List.map_map ..)
  · intro digest hdigest
    obtain ⟨-, member, hmem, hname, hfile, hdigest⟩ := hblobs digest hdigest
    obtain ⟨-, -, hdata, hstop⟩ := htiles.inside member hmem
    refine ⟨member, hmem, hname, hfile, ?_⟩
    unfold memberBytes
    rw [hsame _ _ (hdata.trans hstop)]
    exact hdigest

namespace Sample

theorem decodesAscii_archivePlatform : DecodesAscii archivePlatform := by
  intro text htext
  have hchars : ((asciiBytes text.toList).map fun b ↦ Char.ofNat b.toNat) = text.toList := by
    unfold asciiBytes
    rw [List.map_map]
    calc text.toList.map ((fun b : UInt8 ↦ Char.ofNat b.toNat) ∘ fun c ↦ UInt8.ofNat c.toNat)
      _ = text.toList.map id := by
        apply map_congr_left
        intro c hc
        rw [Function.comp_apply, toNat_ofNat_char (htext c hc), Char.ofNat_toNat, id]
      _ = text.toList := List.map_id _
  change String.ofList ((asciiBytes text.toList).map fun b ↦ Char.ofNat b.toNat) = text
  rw [hchars, String.ofList_toList]

theorem misnamedArchive_members : ∀ members dataEnd,
    catalogTarMembers archivePlatform misnamedArchive 250000000 = .ok (members, dataEnd) →
      members.length < MAX_ARCHIVE_MEMBERS := by
  intro members dataEnd h
  have hcatalog := Except.ok.inj (catalog_misnamedArchive.symm.trans h)
  rw [← (Prod.mk.inj hcatalog).1]
  decide

end Sample

theorem loadedArchive_catalog_misnamed : ∃ verified members manifest stop,
    verifyOciArchive Sample.archivePlatform Sample.misnamedArchive Sample.misnamedDigest 5120
      250000000 = .ok verified ∧
    catalogTarMembers Sample.archivePlatform
      (loadedArchive Sample.archivePlatform Sample.misnamedArchive verified) 250000000 =
        .ok (members ++ [manifest], stop) ∧ manifest.name = "manifest.json" := by
  obtain ⟨verified, hverified, -⟩ := Sample.exists_misnamedArchive
  obtain ⟨members, hcatalog, hloaded⟩ :=
    loadedArchive_catalog Sample.decodesAscii_archivePlatform hverified
  obtain ⟨manifest, _, stop, hspliced, hname, -⟩ :=
    hloaded (Sample.misnamedArchive_members members _ hcatalog)
  exact ⟨verified, members, manifest, stop, hverified, hspliced, hname⟩

end PrivosCluster.LocalRuntime
