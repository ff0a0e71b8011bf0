import PrivosCluster.Master.Conduct
import PrivosCluster.Routing.HostRegistry
import Mathlib.Data.List.TakeWhile

/-!
# What the operations do to public names

The mandate of an operation, with the rows of `app_hosts` it may write and the labels it has seen
to be claimed. The registry keeps to it, and so do the services of the master once the registry
carries out what they ask of it.
-/

namespace PrivosCluster.Routing

open AsyncProgram DocumentStore List AppLifecycle Bool Deployment DeploymentV3

/-- A write that leaves the hostname of a row and its owners as they are. -/
structure KeepsRow (row row' : AppHostRecord) : Prop where
  hostname : row'.hostname = row.hostname
  workspaceId : row'.workspaceId = row.workspaceId
  appId : row'.appId = row.appId

/-- A removal of hosts writes this row: it is deleted, or marked for the worker. -/
def isRetirable (row : AppHostRecord) : Bool := row.cfHostnameId.isNone || row.state != .deleting

def DotFree (label : String) : Prop := '.' ∉ label.toList

theorem firstLabel_dotFree (hostname : String) : DotFree (firstLabel hostname) := by
  intro hdot
  rw [firstLabel, String.toList_ofList] at hdot
  have hchar := mem_takeWhile_imp hdot
  simp at hchar

variable {cs : List Char} {α : Type} {keys : α → List IndexKey} {docs : Collection α keys}
  {reads : α → Prop} {c : SystemCall} {Q : α → Prop} {workspaceId : String} {row : AppHostRecord}
  {filter : AppHostRecord → Bool} {time : Time} {input : SetDesiredHostsInput} {suspended : Bool}

namespace SubdomainRegistry

theorem isSlugChar_of_mem_dashed {c : Char} (h : c ∈ dashed cs) : isSlugChar c := by
  induction cs with
  | nil => cases h
  | cons d cs ih =>
    have hchar : isSlugChar (if isSlugChar d then d else '-') := by
      split
      · assumption
      · decide
    simp only [dashed, foldr_cons] at h
    generalize (if isSlugChar d then d else '-') = e at h hchar
    split at h
    · exact ih h
    · obtain rfl | h := mem_cons.mp h
      · exact hchar
      · exact ih h

theorem mem_of_mem_trimmed {c : Char} (h : c ∈ trimmed cs) : c ∈ cs := by
  have htail : ∀ d, d ∈ (if cs.head? = some '-' then cs.tail else cs) → d ∈ cs := by
    intro d hd
    split at hd
    · exact mem_of_mem_tail hd
    · exact hd
  simp only [trimmed] at h
  generalize (if cs.head? = some '-' then cs.tail else cs) = rest at h htail
  split at h
  · exact htail c (dropLast_subset rest h)
  · exact htail c h

theorem dot_notMem_slug (toLowerCase : String → String) (value : String) :
    '.' ∉ slug toLowerCase value := by
  intro hdot
  simp only [slug] at hdot
  split at hdot
  · revert hdot
    decide
  · have hslug := isSlugChar_of_mem_dashed (mem_of_mem_trimmed (mem_of_mem_take hdot))
    revert hslug
    decide

theorem dot_notMem_hex (bytes : BitVec 24) : '.' ∉ hex bytes := by
  intro hdot
  obtain ⟨i, -, hi⟩ := List.mem_map.mp hdot
  have hdigits : ∀ digit < 16, Nat.digitChar digit ≠ '.' := by decide
  exact hdigits _ (Nat.mod_lt _ (by decide)) hi

theorem randomLabel_dotFree (toLowerCase : String → String) (listingId : String)
    (bytes : BitVec 24) :
    DotFree (String.ofList (slug toLowerCase listingId ++ '-' :: hex bytes)) := by
  unfold DotFree
  simp [dot_notMem_slug, dot_notMem_hex]

end SubdomainRegistry

structure SystemMandate extends Mandate where
  readsRow : AppHostRecord → Prop
  writesRow : AppHostRecord → Prop
  /-- Labels that are known to be claimed by somebody. -/
  taken : String → Prop
  /-- Hostnames whose first label has to be in order. -/
  named : String → Prop
  ownRow : ∀ row, row.workspaceId = workspaceId → writesRow row
  sameHost : ∀ row row', readsRow row → row.workspaceId = workspaceId →
    row'.hostname = row.hostname → writesRow row'
  hostsRow : ∀ appId generationId row, hosts appId generationId →
    AppHostRegistry.ofApp appId generationId row = true → isRetirable row = true → writesRow row

namespace SystemMandate

/-- A row the workspace may register. -/
structure Registers (m : SystemMandate) (row : AppHostRecord) : Prop where
  workspaceId : row.workspaceId = m.workspaceId
  label : m.named row.hostname → firstLabel row.hostname ≠ "" → m.label (firstLabel row.hostname)

/-- The label is given up by its owner. -/
def Releases (label : String) (op : Operation HostLabelRecord) : Prop :=
  ∃ time, op = .updateOne (fun held ↦ held.label == label) (LabelNamespace.releasedAs time)

def Reassigns (op : Operation HostLabelRecord) : Prop :=
  ∃ label owner time, op = .updateOne (fun held ↦ held.label == label && held.state == .reclaimed)
    (LabelNamespace.reassignedAs owner time)

/-- The ways a document of `host_labels` is read or written. -/
inductive PermitsLabels (m : SystemMandate) : Operation HostLabelRecord → Prop
  | find {label : String} (taken : m.taken label) :
    PermitsLabels m (.findOne fun held ↦ held.label == label)
  | hold {held : HostLabelRecord} (state : held.state = .held)
    (owner : held.workspaceId = some m.workspaceId) (dotFree : DotFree held.label) :
    PermitsLabels m (.insertOne held)
  | release {op : Operation HostLabelRecord} (label : String) (h : Releases label op) :
    PermitsLabels m op
  | reassign {op : Operation HostLabelRecord} (h : Reassigns op) : PermitsLabels m op

/-- Labels are drawn by the registry, never asked of the master. -/
def Permits (m : SystemMandate) : SystemCall → Prop
  | .master (.service (.allocateSubdomain _ _)) => False
  | .master c => m.toMandate.Permits c
  | .appHosts (.one (.findOne _)) => True
  | .appHosts (.one (.find _)) => True
  | .appHosts (.one (.insertOne row)) => m.Registers row
  | .appHosts (.one (.updateOne filter update)) =>
    (∀ row, filter row = true → m.writesRow row) ∧ ∀ row, KeepsRow row (update row)
  | .appHosts (.one _) => False
  | .appHosts (.updateMany filter update) =>
    (∀ row, filter row = true → m.writesRow row) ∧ ∀ row, KeepsRow row (update row)
  | .appHosts (.deleteMany filter) => ∀ row, filter row = true → m.writesRow row
  | .hostLabels op => m.PermitsLabels op
  | .randomBytes => True
  | .notify => True

/--
What a mandate relies on: a claim that goes through is the workspace's, a label that is reported
as claimed is, and a claimed label is found.
-/
def Answers (m : SystemMandate) : (c : SystemCall) → Except JsError c.Answer → Prop
  | .master (.service .now), .error _ => False
  | .master c, answer => m.toMandate.Answers c answer
  | .appHosts (.one (.findOne filter)), .ok found =>
    ∀ row, found = some row → filter row = true ∧ m.readsRow row
  | .appHosts (.one (.find filter)), .ok found => ∀ row ∈ found, filter row = true ∧ m.readsRow row
  | .hostLabels (.insertOne held), .ok _ =>
    held.workspaceId = some m.workspaceId → m.label held.label
  | .hostLabels (.insertOne held), .error e =>
    Deployment.isDuplicateKey e = true ∨ e.code = LabelNamespace.alreadyClaimed →
      m.taken held.label
  | .hostLabels (.findOne filter), .ok none =>
    ∀ label, m.taken label → (∀ held : HostLabelRecord, held.label = label → filter held = true) →
      m.label label
  | .hostLabels (.findOne filter), .ok (some held) =>
    filter held = true ∧
      (held.state = .held → held.workspaceId = some m.workspaceId → m.label held.label)
  | _, _ => True

theorem answerable (m : SystemMandate) (c : SystemCall) :
    ∃ answer : Except JsError c.Answer, m.Answers c answer := by
  let e : JsError := { message := "" }
  have hmaster : ∀ c, m.toMandate.Answers c (.error e) := fun c ↦ m.answers_error c e
  cases c with
  | master c =>
    cases c with
    | service s =>
      cases s with
      | now => exact ⟨.ok (0 : Time), trivial⟩
      | _ => exact ⟨.error e, by simpa only [Answers] using hmaster _⟩
    | _ => exact ⟨.error e, by simpa only [Answers] using hmaster _⟩
  | appHosts op =>
    refine ⟨.error e, ?_⟩
    cases op with
    | one op => cases op <;> trivial
    | _ => trivial
  | hostLabels op =>
    refine ⟨.error e, ?_⟩
    cases op with
    | insertOne held => exact fun h ↦ absurd h (by decide)
    | _ => trivial
  | randomBytes => exact ⟨.ok 0, trivial⟩
  | notify => exact ⟨.ok (), trivial⟩

instance : Nonempty JsError := ⟨{ message := "" }⟩

def systemTerms (m : SystemMandate) : Terms systemSignature JsError where
  allows := m.Permits
  answers := m.Answers
  answerable := m.answerable

end SystemMandate

/-! ## What a state answers -/

/-- What is known of documents that are read holds of all that are stored. -/
structure SystemMandate.Bears (m : SystemMandate) (s : System) : Prop where
  apps : ∀ app ∈ s.world.apps.docs, m.reads app
  rows : ∀ row ∈ s.appHosts.docs, m.readsRow row

section Answered

variable {m : SystemMandate} {x : Choice}

theorem answers_findOne [DecidableEq α] {filter : α → Bool} (h : ∀ d ∈ docs.docs, reads d) {d : α}
    (hd : (serveStore (.findOne filter) x docs).1 = .ok (some d)) : filter d ∧ reads d := by
  rw [serveStore_findOne] at hd
  split at hd
  · have hfind := Except.ok.inj hd
    exact ⟨find?_some hfind, h d (mem_of_find?_eq_some hfind)⟩
  · cases hd

theorem answers_find [DecidableEq α] {filter : α → Bool} (h : ∀ d ∈ docs.docs, reads d)
    {found : List α} (hfound : (serveStore (.find filter) x docs).1 = .ok found) :
    ∀ d ∈ found, filter d ∧ reads d := by
  rw [serveStore_find] at hfound
  split at hfound
  · intro d hd
    rw [← Except.ok.inj hfound] at hd
    exact ⟨(mem_filter.mp hd).2, h d (mem_filter.mp hd).1⟩
  · cases hfound

theorem serveBulk_one [DecidableEq α] {op : Operation α} :
    serveBulk (.one op) x docs = serveStore op x docs := by
  cases x.fault <;> rfl

theorem serveBulk_applies [DecidableEq α] {P : Collection α keys → Prop} (op : BulkOperation α)
    (x : Choice) (h : P docs) (happly : P (docs.applyBulk x.pick op).2) :
    P (serveBulk op x docs).2 := by
  unfold serveBulk
  cases x.fault
  · exact happly
  · exact h
  · exact happly

/-- The answers about app records and rows are admissible when the state bears the mandate out. -/
theorem SystemMandate.Bears.answers {s : System} (h : m.Bears s) (hc : m.Permits c)
    (hlabels : ∀ op, c = .hostLabels op → m.Answers c (System.respond c x s).1) :
    m.Answers c (System.respond c x s).1 := by
  cases c with
  | master c =>
    cases c with
    | apps op =>
      have hother : ∀ answer, (∀ d, answer = .ok d → m.toMandate.Answers (.apps op) (.ok d)) →
          m.toMandate.Answers (.apps op) answer := by
        intro answer hanswer
        cases answer with
        | ok d => exact hanswer d rfl
        | error e => exact m.answers_error _ e
      apply hother
      intro d hd
      cases op with
      | findOne filter =>
        intro app happ
        exact answers_findOne h.apps (happ ▸ hd)
      | find filter => exact answers_find h.apps hd
      | _ => trivial
    | service service =>
      cases service with
      | allocateSubdomain => exact hc.elim
      | now =>
        trivial
      | _ => trivial
    | _ => trivial
  | appHosts op =>
    cases op with
    | one op =>
      have hother : ∀ answer, (∀ d, answer = .ok d → m.Answers (.appHosts (.one op)) (.ok d)) →
          m.Answers (.appHosts (.one op)) answer := by
        intro answer hanswer
        cases answer with
        | ok d => exact hanswer d rfl
        | error e => cases op <;> trivial
      apply hother
      intro d hd
      cases op with
      | findOne filter =>
        intro row hrow
        exact answers_findOne h.rows (hrow ▸ hd)
      | find filter => exact answers_find h.rows hd
      | _ => trivial
    | _ => trivial
  | hostLabels op => exact hlabels op rfl
  | randomBytes | notify => trivial

/-- Where any label is in order, the label namespace answers what the mandate relies on. -/
theorem SystemMandate.answers_hostLabels {s : System} (hlabel : ∀ label, m.label label)
    (htaken : ∀ label, m.taken label) (op : Operation HostLabelRecord) (x : Choice) :
    m.Answers (.hostLabels op) (System.respond (.hostLabels op) x s).1 := by
  cases op with
  | findOne filter =>
    simp only [System.respond]
    cases hfound : (serveStore (.findOne filter) x s.hostLabels).1 with
    | error e => trivial
    | ok found =>
      cases found with
      | none => exact fun label _ _ ↦ hlabel label
      | some held =>
        have hstored : ∀ held ∈ s.hostLabels.docs, True := fun _ _ ↦ trivial
        exact ⟨(answers_findOne hstored hfound).1, fun _ _ ↦ hlabel held.label⟩
  | insertOne held =>
    simp only [System.respond]
    cases (serveStore (.insertOne held) x s.hostLabels).1 with
    | ok answer => exact fun _ ↦ hlabel held.label
    | error e => exact fun _ ↦ htaken held.label
  | _ => trivial

end Answered

/-- The action keeps to the mandate, and what it returns satisfies `Q`. -/
abbrev Obeys {α : Type} (m : SystemMandate) (Q : α → Prop) (p : Action α) : Prop :=
  Complies m.systemTerms Q p

section Rules

variable {m : SystemMandate}

theorem obeys_call (h : m.Permits c) : Obeys m (fun _ ↦ True) (await c) :=
  Complies.await (t := m.systemTerms) h fun _ _ ↦ trivial

theorem obeys_now : Obeys m (fun _ ↦ True) systemNow :=
  obeys_call (c := .master (.service .now)) trivial

theorem obeys_locked {p : Action α} (hp : Obeys m Q p) : Obeys m Q (locked workspaceId p) :=
  Meets.seq (obeys_call (c := .master (.acquire _)) trivial) fun _ ↦
    hp.finallyDo (obeys_call (c := .master (.release _)) trivial)

end Rules

/-! ## The label namespace -/

namespace LabelNamespace

variable {m : SystemMandate} {label : String} {owner : LabelOwner}

/-- What is known once a label was to be held. -/
structure Held (m : SystemMandate) (label : String) (outcome : Except JsError Unit) : Prop where
  ok : outcome.isOk = true → m.label label
  error : ∀ e, outcome = .error e → e.code = alreadyClaimed → m.taken label

theorem hold_obeys (howner : owner.workspaceId = m.workspaceId) (hdot : DotFree label) :
    Obeys m (Held m label) (hold label owner).settle := by
  intro x inOrder hs hx
  refine ⟨⟨hs, trivial⟩, ?_⟩
  have hnow : m.Answers (.master (.service .now)) (x (.master (.service .now))) := hx
  cases htime : x (.master (.service .now)) with
  | error e =>
    rw [htime] at hnow
    exact hnow.elim
  | ok time =>
    simp only [SystemMandate.systemTerms, Terms.ledger, htime]
    intro x' inOrder' hs' hx'
    have hpermits : m.PermitsLabels (.insertOne
        { label, state := .held, workspaceId := some owner.workspaceId,
          listingId := some owner.listingId, createdAt := time, updatedAt := time }) :=
      .hold rfl (congrArg some howner) hdot
    refine ⟨⟨hs', hpermits⟩, ?_⟩
    dsimp only at hx' ⊢
    revert hx'
    generalize x' _ = inserted
    intro hinserted
    cases inserted with
    | ok answer => exact ⟨fun _ ↦ hinserted (congrArg some howner), fun _ h ↦ by cases h⟩
    | error error =>
      refine ⟨(fun h ↦ by cases h), fun e he hcode ↦ ?_⟩
      cases hkey : isDuplicateKey error with
      | true => exact hinserted (.inl hkey)
      | false =>
        have heq : error = e := by simpa [hkey] using he
        exact hinserted (.inr (heq ▸ hcode))

/-- A claimed label that reads as available to the workspace is the workspace's. -/
theorem isAvailableFor_obeys (hworkspace : workspaceId = m.workspaceId) (htaken : m.taken label) :
    Obeys m (fun available ↦ available = true → m.label label) (isAvailableFor label workspaceId) := by
  have hfind : Obeys m (fun found ↦ m.Answers (.hostLabels (.findOne fun held ↦ held.label == label))
      (.ok found)) (findLabel label) :=
    Complies.await (t := m.systemTerms) (.find htaken) fun _ h ↦ h
  apply Meets.bind hfind
  intro found hfound
  cases found with
  | none =>
    intro _
    exact hfound label htaken fun held h ↦ by simp [h]
  | some held =>
    intro havailable
    obtain ⟨hlabel, hheld⟩ := hfound
    simp only [Option.all_some, and_eq_true, beq_iff_eq] at havailable
    rw [beq_iff_eq] at hlabel
    exact hlabel ▸ hheld havailable.1 (hworkspace ▸ havailable.2)

/-- Whatever is drawn, the label that is handed out is the workspace's. -/
theorem allocate_obeys {next : Action String} (howner : owner.workspaceId = m.workspaceId)
    (hnext : Obeys m DotFree next) {attempts : Nat} :
    Obeys m m.label (allocate next owner attempts) := by
  induction attempts with
  | zero => trivial
  | succ attempts ih =>
    apply hnext.bind
    intro label hdot
    apply Meets.bind (hold_obeys howner hdot)
    intro held hheld
    cases held with
    | ok _ => exact hheld.ok rfl
    | error error =>
      dsimp only
      split
      · exact ih
      · trivial

theorem release_obeys : Obeys m (fun _ ↦ True) (release label) := by
  apply obeys_now.seq
  intro time
  have hpermits : m.PermitsLabels (.updateOne (fun held ↦ held.label == label) (releasedAs time)) :=
    .release label ⟨time, rfl⟩
  exact (obeys_call (c := .hostLabels _) hpermits).seq fun _ ↦ trivial

theorem reassign_obeys : Obeys m (fun _ ↦ True) (reassign label owner) := by
  apply obeys_now.seq
  intro time
  have hpermits : m.PermitsLabels (.updateOne
      (fun held ↦ held.label == label && held.state == .reclaimed) (reassignedAs owner time)) :=
    .reassign ⟨label, owner, time, rfl⟩
  exact (obeys_call (c := .hostLabels _) hpermits).seq fun _ ↦ Meets.throwIf.imp fun _ _ ↦ trivial

end LabelNamespace

/-! ## The registry of hostnames -/

namespace AppHostRegistry

open LabelNamespace

variable {m : SystemMandate} {deps : RegistryDeps}

theorem claimLabel_obeys {label : String} {owner : LabelOwner} {conflict : JsError}
    (howner : owner.workspaceId = m.workspaceId) (hdot : DotFree label) :
    Obeys m (fun _ ↦ m.label label) (claimLabel label owner conflict) := by
  apply Meets.bind (hold_obeys howner hdot)
  intro held hheld
  cases held with
  | ok _ => exact hheld.ok rfl
  | error error =>
    dsimp only
    split
    · trivial
    next hcode =>
      have htaken := hheld.error error rfl (not_not.mp hcode)
      apply (isAvailableFor_obeys howner htaken).bind
      intro owned howned
      exact Meets.throwIf.imp fun _ h ↦ howned (not_eq_false _ ▸ h)

/-- After its label is claimed, a row that is not custom has one in order. -/
theorem claimLabelOf_obeys {hostname : String} {kind : AppHostKind} {owner : LabelOwner}
    {conflict : String → JsError} (howner : owner.workspaceId = m.workspaceId) :
    Obeys m (fun _ ↦ kind ≠ .custom → firstLabel hostname ≠ "" → m.label (firstLabel hostname))
      (claimLabelOf hostname kind owner conflict) := by
  unfold claimLabelOf
  cases hlabel : truthy (namespaceLabelOf hostname kind) with
  | none =>
    intro hkind hfirst
    have hsome : truthy (namespaceLabelOf hostname kind) = some (firstLabel hostname) := by
      simp [namespaceLabelOf, hkind, truthy, hfirst]
    rw [hlabel] at hsome
    cases hsome
  | some label =>
    have hfirst : firstLabel hostname = label := by
      by_cases hkind : kind = .custom
      · simp [namespaceLabelOf, hkind, truthy] at hlabel
      · simp only [namespaceLabelOf, if_neg hkind, truthy, Option.filter_eq_some_iff] at hlabel
        exact Option.some.inj hlabel.1
    have hdot : DotFree label := hfirst ▸ firstLabel_dotFree hostname
    exact (claimLabel_obeys howner hdot).imp fun _ h _ _ ↦ hfirst ▸ h

theorem insertRow_obeys (h : m.Registers row) : Obeys m (fun _ ↦ True) (insertRow row) := by
  apply (obeys_call (c := .appHosts (.one (.insertOne row))) h).settle.bind
  intro inserted _
  cases inserted <;> trivial

/-- A custom hostname takes no label, so one that needs a label has to have it beforehand. -/
theorem reserve_obeys (input : ReserveInput) (hworkspace : input.workspaceId = m.workspaceId)
    (hcustom : input.kind = .custom → m.named input.hostname → firstLabel input.hostname ≠ "" →
      m.label (firstLabel input.hostname)) :
    Obeys m (fun _ ↦ True) (reserve input) := by
  apply obeys_locked
  apply Meets.seq (obeys_call (c := .appHosts (.one (.findOne _))) trivial)
  intro existing
  cases existing with
  | some existing =>
    dsimp only
    split <;> trivial
  | none =>
    apply (claimLabelOf_obeys hworkspace).bind
    intro _ hclaimed
    apply obeys_now.seq
    intro time
    refine (insertRow_obeys ⟨hworkspace, fun hnamed hfirst ↦ ?_⟩).seq fun _ ↦ trivial
    by_cases hkind : input.kind = .custom
    · exact hcustom hkind hnamed hfirst
    · exact hclaimed hkind hfirst

theorem retire_obeys (h : ∀ row, filter row → isRetirable row → m.writesRow row) :
    Obeys m (fun _ ↦ True) (retire filter time) := by
  have hdeleted : ∀ row, (filter row && row.cfHostnameId.isNone) → m.writesRow row := by
    intro row hrow
    rw [and_eq_true] at hrow
    exact h row hrow.1 (by simp [isRetirable, hrow.2])
  have hmarked : ∀ row, (filter row && row.state != .deleting) → m.writesRow row := by
    intro row hrow
    rw [and_eq_true] at hrow
    exact h row hrow.1 (by simp [isRetirable, hrow.2])
  apply Meets.seq (obeys_call (c := .appHosts (.deleteMany _)) hdeleted)
  intro deleted
  have hupdate : ∀ row, KeepsRow row (retiredAs time row) := fun _ ↦ ⟨rfl, rfl, rfl⟩
  exact Meets.seq (obeys_call (c := .appHosts (.updateMany _ _)) ⟨hmarked, hupdate⟩) fun _ ↦ trivial

theorem announce_obeys {cfWorker : Bool} : Obeys m (fun _ ↦ True) (announce deps cfWorker) := by
  apply (Meets.onlyIf fun _ ↦ obeys_call (c := .master (.service .markDirty)) trivial).seq
  intro _
  exact Meets.onlyIf fun _ ↦ obeys_call (c := .notify) trivial

/-- A row that was read as the workspace's may be written by its hostname. -/
theorem writeHost_obeys {current : List AppHostRecord} {host : DesiredAppHost}
    (hworkspace : input.workspaceId = m.workspaceId)
    (hcurrent : ∀ row ∈ current, row.workspaceId = m.workspaceId ∧ m.readsRow row)
    (hcustom : host.kind = .custom → m.named host.hostname → firstLabel host.hostname ≠ "" →
      m.label (firstLabel host.hostname)) :
    Obeys m (fun _ ↦ True) (writeHost input current time host) := by
  unfold writeHost
  split
  next existing hfound =>
    obtain ⟨hown, hread⟩ := hcurrent existing (mem_of_find?_eq_some hfound)
    have hhostname : existing.hostname = host.hostname := by simpa using find?_some hfound
    have hwrites : ∀ row : AppHostRecord, (row.hostname == host.hostname) →
        m.writesRow row := by
      intro row hrow
      rw [beq_iff_eq, ← hhostname] at hrow
      exact m.sameHost existing row hread hown hrow
    have hupdate : ∀ row, KeepsRow row (desiredAs input host time row) := fun _ ↦ ⟨rfl, rfl, rfl⟩
    exact Meets.seq (obeys_call (c := .appHosts (.one (.updateOne _ _))) ⟨hwrites, hupdate⟩)
      fun _ ↦ trivial
  · apply (claimLabelOf_obeys hworkspace).bind
    intro _ hclaimed
    refine (insertRow_obeys ⟨hworkspace, fun hnamed hfirst ↦ ?_⟩).seq fun _ ↦ trivial
    by_cases hkind : host.kind = .custom
    · exact hcustom hkind hnamed hfirst
    · exact hclaimed hkind hfirst

theorem replaceHosts_obeys (hworkspace : input.workspaceId = m.workspaceId)
    (hcustom : ∀ host ∈ input.hosts, host.kind = .custom → m.named host.hostname →
      firstLabel host.hostname ≠ "" → m.label (firstLabel host.hostname)) :
    Obeys m (fun _ ↦ True) (replaceHosts input) := by
  have hdeleted : ∀ row : AppHostRecord, (row.workspaceId == input.workspaceId &&
      row.appId == input.appId && row.state == .deleting && row.cfHostnameId.isNone) →
      m.writesRow row := by
    intro row hrow
    simp only [and_eq_true, beq_iff_eq] at hrow
    exact m.ownRow row (hrow.1.1.1.trans hworkspace)
  apply Meets.seq (obeys_call (c := .appHosts (.deleteMany _)) hdeleted)
  intro _
  have hfind : Obeys m (fun current ↦ ∀ row ∈ current, row.workspaceId = m.workspaceId ∧
      m.readsRow row) (AppHosts.find fun row ↦ row.workspaceId == input.workspaceId &&
        row.appId == input.appId && row.state != .deleting) := by
    apply Complies.await (t := m.systemTerms) (c := .appHosts (.one (.find _))) trivial
    intro current h row hrow
    obtain ⟨hfilter, hread⟩ := h row hrow
    simp only [and_eq_true, beq_iff_eq] at hfilter
    exact ⟨hfilter.1.1.trans hworkspace, hread⟩
  apply hfind.bind
  intro current hcurrent
  apply obeys_now.seq
  intro time
  apply (Meets.mapEach fun host hhost ↦
    writeHost_obeys hworkspace hcurrent (hcustom host hhost)).bind
  intro written _
  have hretired : ∀ row : AppHostRecord,
      (((current.filter fun row ↦ !(input.hosts.map (·.hostname)).contains row.hostname).map
        (·.hostname)).contains row.hostname) → isRetirable row → m.writesRow row := by
    intro row hrow _
    simp only [contains_iff_mem, List.mem_map] at hrow
    obtain ⟨row', hrow', hhostname⟩ := hrow
    obtain ⟨hown, hread⟩ := hcurrent row' (mem_filter.mp hrow').1
    exact m.sameHost row' row hread hown hhostname.symm
  refine Meets.seq (Meets.onlyIf fun _ ↦ Meets.seq (retire_obeys hretired) fun _ ↦ ?_) fun _ ↦ ?_
  · trivial
  · trivial

theorem setDesiredHosts_obeys (input : SetDesiredHostsInput)
    (hworkspace : input.workspaceId = m.workspaceId)
    (hcustom : ∀ host ∈ input.hosts, host.kind = .custom → m.named host.hostname →
      firstLabel host.hostname ≠ "" → m.label (firstLabel host.hostname)) :
    Obeys m (fun _ ↦ True) (setDesiredHosts deps input) := by
  apply Meets.throwIf.bind
  intro _ _
  apply (obeys_locked (replaceHosts_obeys hworkspace hcustom)).seq
  intro rows
  exact announce_obeys.seq fun _ ↦ trivial

theorem removeAllAppHosts_obeys {appId : String} {generationId : Option String}
    (hhosts : m.hosts appId generationId) :
    Obeys m (fun _ ↦ True) (removeAllAppHosts deps appId generationId) := by
  apply obeys_now.seq
  intro time
  apply (retire_obeys fun row hrow hretirable ↦
    m.hostsRow appId generationId row hhosts hrow hretirable).seq
  intro retired
  exact (Meets.onlyIf fun _ ↦ announce_obeys).seq fun _ ↦ trivial

theorem updateMany_obeys {update : AppHostRecord → AppHostRecord}
    (hfilter : ∀ row, filter row → row.workspaceId = m.workspaceId)
    (hupdate : ∀ row, KeepsRow row (update row)) :
    Obeys m (fun _ ↦ True) (AppHosts.updateMany filter update) :=
  obeys_call (c := .appHosts (.updateMany filter update))
    ⟨fun row hrow ↦ m.ownRow row (hfilter row hrow), hupdate⟩

theorem workspaceId_of_isSuspendedOf {origin : Option AppHostState}
    (h : isSuspendedOf workspaceId origin row) : row.workspaceId = workspaceId := by
  simp only [isSuspendedOf, and_eq_true, beq_iff_eq] at h
  exact h.1.1

theorem sweepHosts_obeys : Obeys m (fun _ ↦ True) (sweepHosts m.workspaceId suspended time) := by
  unfold sweepHosts
  split
  · apply Meets.foldEach (R := fun _ ↦ True) _ trivial
    intro modified origin _ _
    refine Meets.seq (updateMany_obeys (fun row hrow ↦ ?_) fun _ ↦ ⟨rfl, rfl, rfl⟩) fun _ ↦ trivial
    simp only [and_eq_true, beq_iff_eq] at hrow
    exact hrow.1
  · have hsweep : Obeys m (fun _ ↦ True) (Program.foldEach (fun modified (state : AppHostState) ↦ do
        let result ← AppHosts.updateMany (isSuspendedOf m.workspaceId (some state))
          (resumedAs state time)
        .pure (modified + result.modifiedCount)) 0 suspensibleStates) := by
      apply Meets.foldEach (R := fun _ ↦ True) _ trivial
      intro modified state _ _
      exact Meets.seq (updateMany_obeys (fun _ ↦ workspaceId_of_isSuspendedOf)
        fun _ ↦ ⟨rfl, rfl, rfl⟩) fun _ ↦ trivial
    apply hsweep.seq
    intro modified
    exact Meets.seq (updateMany_obeys (fun _ ↦ workspaceId_of_isSuspendedOf)
      fun _ ↦ ⟨rfl, rfl, rfl⟩) fun _ ↦ trivial

theorem setWorkspaceHostsSuspended_obeys :
    Obeys m (fun _ ↦ True) (setWorkspaceHostsSuspended deps m.workspaceId suspended) := by
  apply obeys_now.seq
  intro time
  apply sweepHosts_obeys.seq
  intro modified
  exact (Meets.onlyIf fun _ ↦ announce_obeys).seq fun _ ↦ trivial

end AppHostRegistry

/-! ## The services of the master on one system -/

section Services

variable {m : SystemMandate} {deps : RegistryDeps}

/-- The registry carries out what it is asked within the mandate of who asks. -/
theorem serveSystem_obeys (c : Call) (h : m.toMandate.Permits c) :
    Obeys m (m.toMandate.Answers c) (serveSystem deps c).settle := by
  have hother : ∀ c, m.Permits (.master c) → Obeys m (m.toMandate.Answers c)
      (await (.master c)).settle := by
    intro c hc
    refine (Complies.outcome (t := m.systemTerms) (c := SystemCall.master c) hc).imp
      fun answer hanswer ↦ ?_
    cases c with
    | service s =>
      cases s with
      | now => cases answer <;> trivial
      | _ => exact hanswer
    | _ => exact hanswer
  cases c with
  | service s =>
    cases s with
    | allocateSubdomain listingId workspaceId =>
      have hnext : Obeys m DotFree (SubdomainRegistry.randomLabel deps.toLowerCase listingId) :=
        (obeys_call (c := .randomBytes) trivial).seq fun bytes ↦
          SubdomainRegistry.randomLabel_dotFree deps.toLowerCase listingId bytes
      have hworkspace : workspaceId = m.workspaceId := h
      have hallocate : Obeys m m.label
          (SubdomainRegistry.allocate deps listingId workspaceId) :=
        LabelNamespace.allocate_obeys hworkspace hnext
      refine hallocate.settle.imp fun answer hanswer ↦ ?_
      cases answer with
      | ok label => exact hanswer label rfl
      | error e => trivial
    | setWorkspaceHostsSuspended workspaceId suspended =>
      have hworkspace : workspaceId = m.workspaceId := h
      subst hworkspace
      exact AppHostRegistry.setWorkspaceHostsSuspended_obeys.settle.imp fun _ _ ↦ trivial
    | removeAllAppHosts appId generationId =>
      have hremove : Obeys m (fun _ ↦ True) (serveSystem deps
          (.service (.removeAllAppHosts appId generationId))) :=
        (AppHostRegistry.removeAllAppHosts_obeys h).seq fun _ ↦ trivial
      exact hremove.settle.imp fun _ _ ↦ trivial
    | primaryOf workspaceId appId =>
      have hprimary : Obeys m (fun _ ↦ True) (serveSystem deps
          (.service (.primaryOf workspaceId appId))) :=
        Meets.seq (obeys_call (c := .appHosts (.one (.findOne _))) trivial) fun _ ↦ trivial
      exact hprimary.settle.imp fun _ _ ↦ trivial
    | _ => exact hother _ h
  | _ => exact hother _ h

/-- What follows its mandate on its own obeys it on the system. -/
theorem onSystem_obeys {p : Async α} (h : Follows m.toMandate Q p) : Obeys m Q (onSystem deps p) :=
  Complies.delegate h serveSystem_obeys

end Services

namespace SystemOperation

/--
What an operation of the workspace needs of its mandate: to make records, to give a chosen label,
to replace a removed record, to have the hosts of an app removed.
-/
def Within (deps : SystemDeps) (m : SystemMandate) : SystemOperation → Prop
  | .deploy _ => m.creates
  | .deployMcp grant _ _ =>
    m.creates ∧ ∀ label, grant.deployment.subdomain = some label → m.label label
  | .deployMcpV3 grant _ _ =>
    m.creates ∧ (∀ label, grant.deployment.subdomain = some label → m.label label) ∧
      m.revives grant.deployment.clusterAppId
  | .remove appId workspaceRevoked => deps.lifecycle.appHosts = true → workspaceRevoked = false →
      ∀ app, AppLifecycle.byId m.workspaceId appId app = true → m.reads app →
        m.hosts appId app.mcpGenerationId
  | .reapQuarantined appId => deps.lifecycle.appHosts = true →
      ∀ app, AppLifecycle.byId m.workspaceId appId app = true → m.reads app →
        m.hosts appId app.mcpGenerationId
  | .reserve _ _ hostname kind => kind = .custom → m.named hostname → firstLabel hostname ≠ "" →
      m.label (firstLabel hostname)
  | .setDesiredHosts _ _ _ hosts => ∀ host ∈ hosts, host.kind = .custom → m.named host.hostname →
      firstLabel host.hostname ≠ "" → m.label (firstLabel host.hostname)
  | .removeAllAppHosts appId generationId => m.hosts appId generationId
  | _ => True

theorem onSystem_keeps {m : SystemMandate} {deps : RegistryDeps} {p : Async α}
    (h : Follows m.toMandate (fun _ ↦ True) p) :
    Obeys m (fun _ ↦ True) (onSystem deps p >>= fun _ ↦ .pure ()) :=
  (onSystem_obeys h).seq fun _ ↦ trivial

/-- An operation that stays within a mandate obeys it. -/
theorem program_obeys {m : SystemMandate} {deps : SystemDeps} {operation : SystemOperation}
    (h : operation.Within deps m) :
    Obeys m (fun _ ↦ True) (operation.program deps m.workspaceId) := by
  cases operation with
  | deploy raw => exact onSystem_keeps (deploy_follows h)
  | deployMcp grant deploymentGrantHash hubIdentity =>
    exact onSystem_keeps (deployMcp_follows h.1 h.2)
  | deployMcpV3 grant deploymentGrantHash hubIdentity =>
    exact onSystem_keeps (deployMcpV3_follows h.1 h.2.1 h.2.2)
  | activateMcp input => exact onSystem_keeps activateMcp_follows
  | activateMcpV3 input => exact onSystem_keeps activateMcpV3_follows
  | recoverMcpV3InventoryAttestation runtimeInstallationId =>
    exact onSystem_keeps recoverMcpV3InventoryAttestation_follows
  | reconfigureMcpV3 command => exact onSystem_keeps RuntimeSwap.reconfigureMcpV3_follows
  | upgradeMcpV3 command => exact onSystem_keeps RuntimeSwap.upgradeMcpV3_follows
  | changeAvailabilityTier appId availabilityTier =>
    exact onSystem_keeps changeAvailabilityTier_follows
  | invoke appId action => exact onSystem_keeps invoke_follows
  | setWorkspacePower action => exact onSystem_keeps setWorkspacePower_follows
  | redeploy appId input => exact onSystem_keeps redeploy_follows
  | remove appId workspaceRevoked =>
    exact onSystem_keeps (remove_follows h)
  | reapQuarantined appId =>
    exact onSystem_keeps (reapQuarantined_follows h)
  | unquarantine appId => exact onSystem_keeps unquarantine_follows
  | reserve appId listingId hostname kind =>
    exact (AppHostRegistry.reserve_obeys
      ⟨m.workspaceId, appId, listingId, hostname, kind⟩ rfl h).seq fun _ ↦ trivial
  | setDesiredHosts appId listingId generationId hosts =>
    exact (AppHostRegistry.setDesiredHosts_obeys
      ⟨m.workspaceId, appId, listingId, generationId, hosts⟩ rfl h).seq fun _ ↦ trivial
  | removeAllAppHosts appId generationId =>
    exact (AppHostRegistry.removeAllAppHosts_obeys h).seq fun _ ↦ trivial
  | setWorkspaceHostsSuspended suspended =>
    exact AppHostRegistry.setWorkspaceHostsSuspended_obeys.seq fun _ ↦ trivial
  | releaseLabel label => exact LabelNamespace.release_obeys
  | reassignLabel label listingId => exact LabelNamespace.reassign_obeys

end SystemOperation

end PrivosCluster.Routing
