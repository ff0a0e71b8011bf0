import PrivosCluster.Tunnel.Frames

/-!
# Frames are read back

The round trip between frames and their texts, and what it does not hold for: a number that is
infinite is written as `null`, and a header of the name `__proto__` is left out when it is read.
-/

namespace PrivosCluster.Tunnel

open Json List Option

variable {members : List (String × Json)} {key : String}

/-- No header is lost when it is read. -/
def Kept (headers : Option Headers) : Prop := ∀ h ∈ headers.getD [], h.1 ≠ "__proto__"

def Frame.KeepsHeaders : Frame → Prop
  | .req frame => Kept frame.query ∧ Kept frame.headers
  | .res frame => Kept frame.headers
  | .forward frame => Kept frame.headers
  | _ => True

@[simp] theorem lookup_cons (key' : String) (value : Json) :
    ((key, value) :: members).lookup key' =
      if key' = key then some value else members.lookup key' := by
  rw [List.lookup_cons]
  split <;> simp_all

@[simp] theorem lookup_member (key' : String) (value : Option Json) :
    (member key value).lookup key' = if key' = key then value else none := by
  cases value with
  | none => simp [member]
  | some value => simp [member, lookup_cons]

theorem mapM_headers (headers : Headers) :
    (headers.map fun h ↦ (h.1, Json.str h.2)).mapM
      (fun m ↦ (string? m.2).map fun s ↦ (m.1, s)) = some headers := by
  induction headers with
  | nil => rfl
  | cons h headers ih =>
    rw [map_cons, mapM_cons, ih]
    rfl

theorem record?_headersJson {headers : Headers} (h : Kept (some headers)) :
    record? (headersJson headers) = some headers := by
  simp only [record?, headersJson, mapM_headers, map_some, Option.some.injEq]
  apply filter_eq_self.mpr
  intro a ha
  simpa using h a ha

@[simp] theorem string?_str (s : String) : string? (.str s) = some s := rfl

@[simp] theorem number?_num (n : Rat) : number? (.num n) = some n := rfl

@[simp] theorem boolean?_bool (b : Bool) : boolean? (.bool b) = some b := rfl

/-- What `optional` makes of a member that may be missing. -/
def accepted {α : Type} (check : Json → Option α) : Option Json → Option (Option α)
  | none => some none
  | some value => (check value).map some

variable {α : Type} {value : Option α} {write : α → Json} {headers : Option Headers}
  {P : Rat → Prop}

@[simp] theorem optional_eq (check : Json → Option α) :
    optional check members key = accepted check (members.lookup key) := by
  unfold optional
  cases members.lookup key <;> rfl

/-- An optional member is read as it is written. -/
theorem accepted_map {check : Json → Option α} (h : ∀ a ∈ value, check (write a) = some a) :
    accepted check (value.map write) = some value := by
  cases value with
  | none => rfl
  | some _ => simp [accepted, h]

@[simp] theorem accepted_str (value : Option String) :
    accepted string? (value.map .str) = some value :=
  accepted_map fun _ _ ↦ rfl

@[simp] theorem accepted_bool (value : Option Bool) :
    accepted boolean? (value.map .bool) = some value :=
  accepted_map fun _ _ ↦ rfl

theorem accepted_headers (h : Kept headers) :
    accepted record? (headers.map headersJson) = some headers :=
  accepted_map fun _ ha ↦ record?_headersJson (ha ▸ h)

@[simp] theorem accepted_nodeIdentity (value : Option NodeIdentitySummary) :
    accepted nodeIdentity? (value.map (·.json)) = some value := by
  apply accepted_map
  intro identity _
  simp [nodeIdentity?, NodeIdentitySummary.json, members?, required, literal?]

@[simp] theorem accepted_error (value : Option ErrorBody) :
    accepted errorBody? (value.map fun error ↦
      .obj [("code", .str error.code), ("message", .str error.message)]) = some value := by
  apply accepted_map
  intro error _
  simp [errorBody?, members?, required]

/-- What is written of a frame is read as the frame. -/
theorem frameOf_json {frame : Frame} (h : frame.KeepsHeaders) :
    (members? frame.json).bind frameOf = some frame := by
  cases frame with
  | req frame =>
    have hquery := accepted_headers h.1
    have hheaders := accepted_headers h.2
    simp [Frame.json, members?, frameOf, required, lookup_append, hquery, hheaders]
  | res frame | forward frame =>
    have hheaders := accepted_headers h
    simp [Frame.json, members?, frameOf, required, lookup_append, hheaders]
  | _ => simp [Frame.json, members?, frameOf, required, lookup_append]

/-! ## Frames that were read -/

theorem names_nodup (frame : Frame) : (((members? frame.json).getD []).map Prod.fst).Nodup := by
  cases frame with
  | hello frame =>
    obtain ⟨_, _, _, _, identity⟩ := frame
    cases identity <;> simp [Frame.json, members?, member]
  | req frame =>
    obtain ⟨_, _, _, query, headers, body, raw, rawBody, _⟩ := frame
    cases query <;> cases headers <;> cases body <;> cases raw <;> cases rawBody <;>
      simp [Frame.json, members?, member]
  | reqChunk frame =>
    obtain ⟨_, _, _, sha256, _⟩ := frame
    cases sha256 <;> simp [Frame.json, members?, member]
  | res frame =>
    obtain ⟨_, _, headers, body, raw, rawBody, error⟩ := frame
    cases headers <;> cases body <;> cases raw <;> cases rawBody <;> cases error <;>
      simp [Frame.json, members?, member]
  | forward frame =>
    obtain ⟨_, _, _, headers, body, _⟩ := frame
    cases headers <;> cases body <;> simp [Frame.json, members?, member]
  | _ => simp [Frame.json, members?]

theorem printable_append {earlier later : List (String × Json)} :
    PrintableMembers P (earlier ++ later) ↔ PrintableMembers P earlier ∧ PrintableMembers P later := by
  simp only [printableMembers_iff, mem_append, or_imp, forall_and]

theorem printable_map :
    PrintableMembers P (member key (value.map write)) ↔ ∀ a, value = some a → Printable P (write a) := by
  cases value <;> simp [member, PrintableMembers]

theorem printable_lookup {value : Json} (hmembers : PrintableMembers (fun _ ↦ True) members)
    (h : members.lookup key = some value) : Printable (fun _ ↦ True) value := by
  obtain ⟨before, after, rfl, -⟩ := lookup_eq_some_iff.mp h
  exact printableMembers_iff.mp hmembers (key, value) (by simp)

theorem record?_eq_some {value : Json} {headers : Headers} (hvalue : Printable (fun _ ↦ True) value)
    (h : record? value = some headers) :
    Kept (some headers) ∧ Printable (fun _ ↦ True) (headersJson headers) := by
  cases value with
  | obj members =>
    obtain ⟨read, hread, rfl⟩ := map_eq_some_iff.mp h
    refine ⟨fun h hmem ↦ by simpa using (mem_filter.mp hmem).2, ?_, ?_⟩
    · rw [List.map_map]
      have hnames : read.map Prod.fst = members.map Prod.fst := by
        clear h hvalue
        induction members generalizing read with
        | nil => cases hread; rfl
        | cons m members ih =>
          rw [mapM_cons] at hread
          obtain ⟨first, hfirst, hread⟩ := bind_eq_some_iff.mp hread
          obtain ⟨others, hothers, hread⟩ := bind_eq_some_iff.mp hread
          obtain ⟨s, -, rfl⟩ := map_eq_some_iff.mp hfirst
          rw [← some.inj hread, map_cons, map_cons, ih others hothers]
      have hread := hvalue.1
      rw [← hnames] at hread
      exact hread.sublist (List.Sublist.map _ filter_sublist)
    · apply printableMembers_iff.mpr
      intro m hm
      obtain ⟨h, -, rfl⟩ := List.mem_map.mp hm
      trivial
  | _ => cases h

theorem headers_of_optional (hmembers : PrintableMembers (fun _ ↦ True) members)
    (h : optional record? members key = some headers) :
    Kept headers ∧ ∀ h, headers = some h → Printable (fun _ ↦ True) (headersJson h) := by
  unfold optional at h
  split at h
  · cases h
    exact ⟨nofun, nofun⟩
  next value hlookup =>
    obtain ⟨read, hread, rfl⟩ := map_eq_some_iff.mp h
    have hrecord := record?_eq_some (printable_lookup hmembers hlookup) hread
    exact ⟨hrecord.1, fun h heq ↦ some.inj heq ▸ hrecord.2⟩

theorem frameOf_printable {frame : Frame} (hmembers : PrintableMembers (fun _ ↦ True) members)
    (h : frameOf members = some frame) :
    Printable (fun _ ↦ True) frame.json ∧ frame.KeepsHeaders := by
  have hbody : PrintableMembers (fun _ ↦ True) (member "body" (members.lookup "body")) := by
    cases hlookup : members.lookup "body" with
    | none => trivial
    | some value => exact ⟨printable_lookup hmembers hlookup, trivial⟩
  unfold frameOf at h
  obtain ⟨t, -, h⟩ := bind_eq_some_iff.mp h
  generalize members.lookup "body" = body at h hbody
  simp only [bind_eq_bind] at h
  split at h
  · simp only [bind_eq_some_iff] at h
    obtain ⟨_, -, _, -, _, -, _, -, _, -, _, -, h⟩ := h
    cases h
    refine ⟨⟨names_nodup (.hello _), ?_⟩, trivial⟩
    simp [Printable, PrintableMembers, printable_map, NodeIdentitySummary.json]
  · simp only [bind_eq_some_iff] at h
    obtain ⟨_, -, _, -, _, -, query, hquery, headers, hheaders, raw, -, rawBody, -, _, -, h⟩ := h
    cases h
    obtain ⟨hkeptQuery, hquery⟩ := headers_of_optional hmembers hquery
    obtain ⟨hkept, hheaders⟩ := headers_of_optional hmembers hheaders
    refine ⟨⟨names_nodup (.req _), ?_⟩, hkeptQuery, hkept⟩
    simpa [Printable, PrintableMembers, printable_append, printable_map, hbody]
      using ⟨hquery, hheaders⟩
  · simp only [bind_eq_some_iff] at h
    obtain ⟨_, -, _, -, _, -, _, -, _, -, h⟩ := h
    cases h
    refine ⟨⟨names_nodup (.reqChunk _), ?_⟩, trivial⟩
    simp [Printable, PrintableMembers, printable_append, printable_map]
  · simp only [bind_eq_some_iff] at h
    obtain ⟨_, -, _, -, headers, hheaders, _, -, _, -, _, -, h⟩ := h
    cases h
    obtain ⟨hkept, hheaders⟩ := headers_of_optional hmembers hheaders
    refine ⟨⟨names_nodup (.res _), ?_⟩, hkept⟩
    simpa [Printable, PrintableMembers, printable_append, printable_map, hbody]
      using hheaders
  · simp only [bind_eq_some_iff] at h
    obtain ⟨_, -, _, -, _, -, headers, hheaders, _, -, h⟩ := h
    cases h
    obtain ⟨hkept, hheaders⟩ := headers_of_optional hmembers hheaders
    refine ⟨⟨names_nodup (.forward _), ?_⟩, hkept⟩
    simpa [Printable, PrintableMembers, printable_append, printable_map, hbody]
      using hheaders
  · simp only [bind_eq_some_iff] at h
    obtain ⟨_, -, h⟩ := h
    cases h
    exact ⟨⟨names_nodup (.ping _), by simp [Printable, PrintableMembers]⟩, trivial⟩
  · simp only [bind_eq_some_iff] at h
    obtain ⟨_, -, h⟩ := h
    cases h
    exact ⟨⟨names_nodup (.pong _), by simp [Printable, PrintableMembers]⟩, trivial⟩
  · simp only [bind_eq_some_iff] at h
    obtain ⟨_, -, _, -, h⟩ := h
    cases h
    exact ⟨⟨names_nodup (.paired _), by simp [Printable, PrintableMembers]⟩, trivial⟩
  · cases h

/-! ## The round trip -/

section

variable {platform : Platform} {frame : Frame} {text : String}

theorem decodeFrame_printable (h : decodeFrame platform text = some frame) :
    Printable (fun _ ↦ True) frame.json ∧ frame.KeepsHeaders := by
  unfold decodeFrame at h
  split at h
  · cases h
  · obtain ⟨value, hparse, h⟩ := bind_eq_some_iff.mp h
    obtain ⟨members, hmembers, h⟩ := bind_eq_some_iff.mp h
    have hvalue := printable_of_parse (P := fun _ ↦ True) (fun _ _ _ ↦ trivial) hparse
    cases value with
    | obj members' =>
      obtain rfl := some.inj hmembers
      exact frameOf_printable hvalue.2 h
    | _ => cases hmembers

variable {finite : Rat → Prop}

theorem decodeFrame_encodeFrame (hformat : NumberFormat finite platform.number platform.numberText)
    (hfinite : Printable finite frame.json) (hkept : frame.KeepsHeaders)
    (h : encodeFrame platform frame = some text) : decodeFrame platform text = some frame := by
  unfold encodeFrame at h
  dsimp only at h
  split at h
  · cases h
  next hshort =>
    obtain rfl := some.inj h
    unfold decodeFrame
    rw [if_neg hshort, parse_stringify hformat hfinite]
    exact frameOf_json hkept

end

namespace Sample

/-- A language with one finite number, and one value that stands for the infinite one. -/
def overflowing : Platform where
  number token := if token = "3" then some 3 else if token = "1e999" then some 4 else none
  numberText n := if n = 3 then "3" else "null"
  toUpperCase := id
  trim := id
  replaceInvalid _ := ""
  sha256Hex _ := ""
  searchParams _ := ""

def proto : Frame := .res { id := "a", status := 3, headers := some [("__proto__", "x")] }

def pinged : Option Frame → Option Rat
  | some (.ping time) => some time
  | _ => none

end Sample

theorem encodeFrame_eq_some {platform : Platform} {frame : Frame}
    (h : ¬ MAX_JSON_FRAME_BYTES < (stringify platform.numberText frame.json).utf8ByteSize) :
    encodeFrame platform frame = some (stringify platform.numberText frame.json) :=
  if_neg h

end PrivosCluster.Tunnel
