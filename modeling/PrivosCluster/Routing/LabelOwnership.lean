import PrivosCluster.Routing.TenantRoutes

/-!
# Who owns the hosts below the base domain

A host below the base domain is owned by an app record through its label, or by a row of
`app_hosts`. Labels that an operation allocates or claims are held in `host_labels` by its
workspace; labels that a grant chooses, and custom hostnames below the base domain, are not
claimed at all. Operations run in any interleaving, so what an operation knows of a label is what
it was answered, and it acts on that later.
-/

namespace PrivosCluster.Routing

open AsyncProgram DocumentStore List

/-- A hostname with a first label, below the base domain. -/
def UnderBase (baseDomain hostname : String) : Prop :=
  firstLabel hostname ≠ "" ∧ ∃ name, hostname = name ++ "." ++ baseDomain

/-- The public hosts that a workspace owns through its app records and its rows. -/
inductive Owns (baseDomain : String) (s : System) : String → String → Prop
  | app {app : MasterApp} {label : String} (stored : app ∈ s.world.apps.docs)
    (subdomain : app.subdomain = some label) (nonempty : label ≠ "") :
    Owns baseDomain s (label ++ "." ++ baseDomain) app.workspaceId
  | row {row : AppHostRecord} (stored : row ∈ s.appHosts.docs)
    (under : UnderBase baseDomain row.hostname) : Owns baseDomain s row.hostname row.workspaceId

def Holds (s : System) (label workspaceId : String) : Prop :=
  ∃ held ∈ s.hostLabels.docs,
    held.label = label ∧ held.state = .held ∧ held.workspaceId = some workspaceId

/-- Every owner of a host holds the label of the host. -/
def OwnersHold (baseDomain : String) (s : System) : Prop :=
  ∀ host workspaceId, Owns baseDomain s host workspaceId → Holds s (firstLabel host) workspaceId

/-- One label namespace: no host has two owners, and every owner holds the label. -/
structure LabelsOwned (baseDomain : String) (s : System) : Prop where
  unique : ∀ host workspaceId workspaceId', Owns baseDomain s host workspaceId →
    Owns baseDomain s host workspaceId' → workspaceId = workspaceId'
  held : OwnersHold baseDomain s

variable {workspaceId : String}

theorem Holds.unique {s : System} {label workspaceId' : String} (h : Holds s label workspaceId)
    (h' : Holds s label workspaceId') : workspaceId = workspaceId' := by
  obtain ⟨held, hheld, hlabel, -, howner⟩ := h
  obtain ⟨held', hheld', hlabel', -, howner'⟩ := h'
  have heq := Collection.eq_of_mem_of_id hostLabelIdentity hheld hheld' (hlabel.trans hlabel'.symm)
  subst heq
  exact Option.some.inj (howner.symm.trans howner')

/-- Two owners of a host would hold one label. -/
theorem OwnersHold.labelsOwned {baseDomain : String} {s : System} (h : OwnersHold baseDomain s) :
    LabelsOwned baseDomain s where
  unique host _ _ howns howns' := (h host _ howns).unique (h host _ howns')
  held := h

theorem firstLabel_of_dotFree {label baseDomain : String} (h : DotFree label) :
    firstLabel (label ++ "." ++ baseDomain) = label := by
  have hall : ∀ c ∈ label.toList, decide (c ≠ '.') := by
    intro c hc
    have hne : c ≠ '.' := fun heq ↦ h (heq ▸ hc)
    simpa using hne
  rw [firstLabel, String.toList_append, String.toList_append, append_assoc,
    takeWhile_append_of_pos hall]
  simp

/-! ## Calls that give and free labels -/

/-- The call gives a host to the workspace, under a label. -/
inductive Gives (baseDomain : String) : SystemCall → String → String → Prop
  | inserted {app : MasterApp} {label : String} (subdomain : app.subdomain = some label)
    (nonempty : label ≠ "") :
    Gives baseDomain (.master (.apps (.insertOne app))) label (label ++ "." ++ baseDomain)
  | revived {app : MasterApp} {filter : MasterApp → Bool} {label : String}
    (subdomain : app.subdomain = some label) (nonempty : label ≠ "") :
    Gives baseDomain (.master (.apps (.replaceOne filter app))) label (label ++ "." ++ baseDomain)
  | registered {row : AppHostRecord} (under : UnderBase baseDomain row.hostname) :
    Gives baseDomain (.appHosts (.one (.insertOne row))) (firstLabel row.hostname) row.hostname

def Frees (label : String) : SystemCall → Prop
  | .hostLabels op => SystemMandate.Releases label op
  | _ => False

/-- The call asks about the label. -/
def Asks (label : String) : SystemCall → Prop
  | .hostLabels (.insertOne held) => held.label = label
  | .hostLabels (.findOne filter) => ∃ held : HostLabelRecord, held.label = label ∧ filter held = true
  | _ => False

/-- Every document's label has no dot. -/
def DotFreeLabels (s : System) : Prop := ∀ held ∈ s.hostLabels.docs, DotFree held.label

section Calls

variable {m : SystemMandate} {baseDomain : String} {s : System} {c : SystemCall}

/-- After a call, a host has an owner from before, or the one the call gave it to. -/
theorem owns_respond (hc : m.Permits c) (x : Choice) {host : String}
    (h : Owns baseDomain (System.respond c x s).2 host workspaceId) :
    Owns baseDomain s host workspaceId ∨
      workspaceId = m.workspaceId ∧ ∃ label, Gives baseDomain c label host := by
  cases c with
  | master c =>
    cases c with
    | apps op =>
      -- where the label and the workspace of a record come from
      let Known (app : MasterApp) : Prop := ∀ label, app.subdomain = some label → label ≠ "" →
        Owns baseDomain s (label ++ "." ++ baseDomain) app.workspaceId ∨
          app.workspaceId = m.workspaceId ∧
            ∃ given, Gives baseDomain (.master (.apps op)) given (label ++ "." ++ baseDomain)
      have hbefore : ∀ app ∈ s.world.apps.docs, Known app :=
        fun app happ label hlabel hne ↦ .inl (.app happ hlabel hne)
      have hop : op.Respects Known := by
        cases op with
        | insertOne app =>
          exact fun label hlabel hne ↦ .inr ⟨hc.workspaceId, label, .inserted hlabel hne⟩
        | updateOne filter update =>
          intro app happ _ label hlabel hne
          rw [(hc.2 app).subdomain] at hlabel
          rw [(hc.2 app).workspaceId]
          exact happ label hlabel hne
        | replaceOne filter replacement =>
          exact fun _ label hlabel hne ↦ .inr ⟨hc.1.workspaceId, label, .revived hlabel hne⟩
        | upsertOne filter update fresh => exact hc.elim
        | insertMany docs => exact hc.elim
        | findOne | find => trivial
      have hafter := serveStore_applies (P := fun apps ↦ ∀ app ∈ apps.docs, Known app) op x hbefore
        (Collection.forall_apply hop hbefore)
      cases h with
      | app stored hlabel hne => exact hafter _ stored _ hlabel hne
      | row stored hunder => exact .inl (.row stored hunder)
    | _ =>
      cases h with
      | app stored hlabel hne => exact .inl (.app stored hlabel hne)
      | row stored hunder => exact .inl (.row stored hunder)
  | appHosts op =>
    let Known (row : AppHostRecord) : Prop := UnderBase baseDomain row.hostname →
      Owns baseDomain s row.hostname row.workspaceId ∨
        row.workspaceId = m.workspaceId ∧
          ∃ given, Gives baseDomain (.appHosts op) given row.hostname
    have hbefore : ∀ row ∈ s.appHosts.docs, Known row :=
      fun row hrow hunder ↦ .inl (.row hrow hunder)
    have hupdate : ∀ update : AppHostRecord → AppHostRecord, (∀ row, KeepsRow row (update row)) →
        ∀ row, Known row → Known (update row) := by
      intro update hkeeps row hrow
      unfold Known
      rw [(hkeeps row).hostname, (hkeeps row).workspaceId]
      exact hrow
    have hop : op.Respects Known := by
      cases op with
      | one op =>
        cases op with
        | insertOne row => exact fun hunder ↦ .inr ⟨hc.workspaceId, _, .registered hunder⟩
        | updateOne filter update => exact fun row hrow _ ↦ hupdate update hc.2 row hrow
        | findOne | find => trivial
        | _ => exact hc.elim
      | updateMany filter update => exact fun row hrow _ ↦ hupdate update hc.2 row hrow
      | deleteMany filter => trivial
    have hafter := serveBulk_applies (P := fun rows ↦ ∀ row ∈ rows.docs, Known row) op x hbefore
      (Collection.forall_applyBulk hop hbefore)
    cases h with
    | app stored hlabel hne => exact .inl (.app stored hlabel hne)
    | row stored hunder => exact hafter _ stored hunder
  | _ =>
    cases h with
    | app stored hlabel hne => exact .inl (.app stored hlabel hne)
    | row stored hunder => exact .inl (.row stored hunder)

/-- A workspace goes on to hold a label that the call does not free. -/
theorem Holds.respond {label : String} (h : Holds s label workspaceId) (hc : m.Permits c)
    (hfrees : ¬ Frees label c) (x : Choice) : Holds (System.respond c x s).2 label workspaceId := by
  cases c with
  | hostLabels op =>
    obtain ⟨held, hstored, hlabel, hstate, howner⟩ := h
    have hselects : ¬ op.Selects held := by
      intro hselected
      cases hc with
      | find | hold => exact hselected
      | release freed hreleases =>
        obtain ⟨time, rfl⟩ := hreleases
        have hfreed : label = freed := by simpa [Operation.Selects, hlabel] using hselected
        exact hfrees ⟨time, hfreed ▸ rfl⟩
      | reassign hreassigns =>
        obtain ⟨given, owner, time, rfl⟩ := hreassigns
        simp [Operation.Selects, hstate] at hselected
    exact ⟨held, mem_serveStore_of_not_selects hstored hselects, hlabel, hstate, howner⟩
  | _ => exact h

/-- A label that is stored stays stored. -/
theorem stored_respond {label : String} (h : ∃ held ∈ s.hostLabels.docs, held.label = label)
    (hc : m.Permits c) (x : Choice) :
    ∃ held ∈ (System.respond c x s).2.hostLabels.docs, held.label = label := by
  cases c with
  | hostLabels op =>
    have hop : op.Carries (fun _ ↦ True) fun held : HostLabelRecord ↦ held.label = label := by
      cases hc with
      | find | hold => trivial
      | release freed hreleases =>
        obtain ⟨time, rfl⟩ := hreleases
        exact fun _ _ hlabel _ ↦ hlabel
      | reassign hreassigns =>
        obtain ⟨given, owner, time, rfl⟩ := hreassigns
        exact fun _ _ hlabel _ ↦ hlabel
    exact serveStore_applies (P := fun labels ↦ ∃ held ∈ labels.docs, held.label = label) op x h
      (Collection.exists_apply hop (fun _ _ ↦ trivial) h)
  | _ => exact h

theorem DotFreeLabels.respond (h : DotFreeLabels s) (hc : m.Permits c) (x : Choice) :
    DotFreeLabels (System.respond c x s).2 := by
  cases c with
  | hostLabels op =>
    have hop : op.Respects fun held : HostLabelRecord ↦ DotFree held.label := by
      cases hc with
      | find => trivial
      | hold state owner hdot => exact hdot
      | release freed hreleases =>
        obtain ⟨time, rfl⟩ := hreleases
        exact fun _ hdot _ ↦ hdot
      | reassign hreassigns =>
        obtain ⟨given, owner, time, rfl⟩ := hreassigns
        exact fun _ hdot _ ↦ hdot
    exact serveStore_applies
      (P := fun labels : Collection HostLabelRecord hostLabelKeys ↦
        ∀ held ∈ labels.docs, DotFree held.label) op x h (Collection.forall_apply hop h)
  | _ => exact h

/-- The owners go on to hold their labels, when a host is given only under a label that is held. -/
theorem OwnersHold.respond (h : OwnersHold baseDomain s) (hc : m.Permits c)
    (hgives : ∀ label host, Gives baseDomain c label host → Holds s (firstLabel host) m.workspaceId)
    (hfrees : ∀ label, Frees label c → ∀ host workspaceId, Owns baseDomain s host workspaceId →
      firstLabel host ≠ label) (x : Choice) : OwnersHold baseDomain (System.respond c x s).2 := by
  intro host workspaceId howns
  obtain howns | ⟨rfl, label, hgiven⟩ := owns_respond hc x howns
  · apply (h host workspaceId howns).respond hc
    intro hfreed
    exact hfrees _ hfreed host workspaceId howns rfl
  · apply (hgives label host hgiven).respond hc
    intro hfreed
    cases hgiven <;> exact hfreed

end Calls

/-! ## What an operation knows of labels -/

inductive Fact where
  /-- The workspace of the operation held the label when it asked. -/
  | held (label : String)
  /-- The label was claimed by somebody. -/
  | taken (label : String)
  /-- A claimed label was not found. -/
  | absent

/-- What the answer of a call teaches an operation of the workspace. -/
def learns (workspaceId : String) : (c : SystemCall) → Except JsError c.Answer → Fact → Prop
  | .hostLabels (.insertOne held), .ok _, fact => fact = .held held.label
  | .hostLabels (.insertOne held), .error e, fact =>
    (Deployment.isDuplicateKey e = true ∨ e.code = LabelNamespace.alreadyClaimed) ∧
      fact = .taken held.label
  | .hostLabels (.findOne _), .ok none, fact => fact = .absent
  | .hostLabels (.findOne _), .ok (some held), fact =>
    held.state = .held ∧ held.workspaceId = some workspaceId ∧ fact = .held held.label
  | _, _, _ => False

/-- The labels an operation chooses itself, for an app or for a custom hostname. -/
def SystemOperation.Chooses (baseDomain : String) : SystemOperation → String → Prop
  | .deployMcp grant _ _, label => grant.deployment.subdomain = some label
  | .deployMcpV3 grant _ _, label => grant.deployment.subdomain = some label
  | .reserve _ _ hostname kind, label =>
    kind = .custom ∧ UnderBase baseDomain hostname ∧ label = firstLabel hostname
  | .setDesiredHosts _ _ _ hosts, label => ∃ host ∈ hosts,
      host.kind = .custom ∧ UnderBase baseDomain host.hostname ∧ label = firstLabel host.hostname
  | _, _ => False

/-- An operation gives only labels that it knows its workspace to hold, or that it chose. -/
def informed (baseDomain : String) (task : String × SystemOperation) (known : Fact → Prop) :
    SystemMandate :=
  { unrestricted task.1 with
    label := fun label ↦ known (.held label) ∨ known .absent ∨ task.2.Chooses baseDomain label
    taken := fun label ↦ known (.taken label)
    named := UnderBase baseDomain }

theorem informed_within (deps : SystemDeps) (baseDomain : String)
    (task : String × SystemOperation) (known : Fact → Prop) :
    task.2.Within deps (informed baseDomain task known) := by
  obtain ⟨workspaceId, operation⟩ := task
  cases operation with
  | deployMcp grant deploymentGrantHash hubIdentity =>
    exact ⟨trivial, fun _ hchosen ↦ .inr (.inr hchosen)⟩
  | deployMcpV3 grant deploymentGrantHash hubIdentity =>
    exact ⟨trivial, fun _ hchosen ↦ .inr (.inr hchosen), trivial⟩
  | remove appId workspaceRevoked => exact fun _ _ _ _ _ ↦ trivial
  | reapQuarantined appId => exact fun _ _ _ _ ↦ trivial
  | reserve appId listingId hostname kind =>
    exact fun hkind hunder _ ↦ .inr (.inr ⟨hkind, hunder, rfl⟩)
  | setDesiredHosts appId listingId generationId hosts =>
    exact fun host hhost hkind hunder _ ↦ .inr (.inr ⟨host, hhost, hkind, hunder, rfl⟩)
  | _ => trivial

/-- Every operation gives labels on the ground of what it is answered. -/
theorem program_justified (deps : SystemDeps) (baseDomain : String)
    (task : String × SystemOperation) :
    Justified (fun known ↦ (informed baseDomain task known).systemTerms) (fun _ ↦ False)
      (task.2.program deps task.1) :=
  fun known _ ↦ SystemOperation.program_obeys (informed_within deps baseDomain task known)

/-- An answer is admissible for whoever knows what it teaches. -/
theorem informed_answers {baseDomain : String} {task : String × SystemOperation}
    {known : Fact → Prop} {c : SystemCall} {x : Choice} {s : System}
    (hc : (informed baseDomain task known).Permits c)
    (hknown : ∀ fact, learns task.1 c (System.respond c x s).1 fact → known fact) :
    (informed baseDomain task known).Answers c (System.respond c x s).1 := by
  have hbears : (informed baseDomain task known).Bears s := ⟨fun _ _ ↦ trivial, fun _ _ ↦ trivial⟩
  apply hbears.answers hc
  rintro op rfl
  simp only [System.respond] at hknown ⊢
  cases op with
  | findOne filter =>
    cases hfound : (serveStore (.findOne filter) x s.hostLabels).1 with
    | error e => trivial
    | ok found =>
      rw [hfound] at hknown
      cases found with
      | none => exact fun _ _ _ ↦ .inr (.inl (hknown _ rfl))
      | some held =>
        have hstored : ∀ held ∈ s.hostLabels.docs, True := fun _ _ ↦ trivial
        exact ⟨(answers_findOne hstored hfound).1,
          fun hstate howner ↦ .inl (hknown _ ⟨hstate, howner, rfl⟩)⟩
  | insertOne held =>
    cases hinserted : (serveStore (.insertOne held) x s.hostLabels).1 with
    | ok answer =>
      rw [hinserted] at hknown
      exact fun _ ↦ .inl (hknown _ rfl)
    | error e =>
      rw [hinserted] at hknown
      exact fun hclaimed ↦ hknown _ ⟨hclaimed, rfl⟩
  | _ => trivial

/-- A fault is not reported as a label that is claimed. -/
def genuine : SystemLaw := fun _ x _ ↦ x.fault ≠ .none →
  Deployment.isDuplicateKey x.error = false ∧ x.error.code ≠ LabelNamespace.alreadyClaimed

section Learning

variable {baseDomain : String} {task : String × SystemOperation} {known : Fact → Prop}
  {c : SystemCall} {x : Choice} {s : System} {label : String}

/-- A label whose insertion would break the index is stored. -/
theorem stored_of_clash {labels : Collection HostLabelRecord hostLabelKeys} {held : HostLabelRecord}
    (h : ¬ ((labels.docs ++ [held]).flatMap hostLabelKeys).Nodup) :
    ∃ stored ∈ labels.docs, stored.label = held.label := by
  by_contra hfree
  apply h
  rw [flatMap_append]
  apply labels.unique.append (nodup_singleton _)
  intro key hkey hheld
  obtain ⟨stored, hstored, hkey⟩ := mem_flatMap.mp hkey
  have hstored_key : key = ⟨["_id"], [stored.label]⟩ := mem_singleton.mp hkey
  have hheld_key : key = ⟨["_id"], [held.label]⟩ := by simpa [hostLabelKeys] using hheld
  rw [hstored_key] at hheld_key
  injection hheld_key with _ hlabel
  exact hfree ⟨stored, hstored, singleton_inj.mp hlabel⟩

/-- An insertion either takes place, or finds its label claimed, or is answered with a fault. -/
theorem insert_cases (held : HostLabelRecord) (x : Choice) (s : System) :
    held ∈ (serveStore (.insertOne held) x s.hostLabels).2.docs ∧
        (serveStore (.insertOne held) x s.hostLabels).1 = .ok () ∨
      (∃ stored ∈ s.hostLabels.docs, stored.label = held.label) ∧
        (∃ e, (serveStore (.insertOne held) x s.hostLabels).1 = .error e) ∨
      x.fault ≠ .none ∧ (serveStore (.insertOne held) x s.hostLabels).1 = .error x.error := by
  unfold serveStore
  cases x.fault with
  | none =>
    by_cases hunique : ((s.hostLabels.docs ++ [held]).flatMap hostLabelKeys).Nodup
    · left
      simp only [Collection.apply, Collection.put, dif_pos hunique]
      exact ⟨mem_append_right _ (mem_singleton_self _), rfl⟩
    · right
      left
      simp only [Collection.apply, Collection.put, dif_neg hunique]
      exact ⟨stored_of_clash hunique, _, rfl⟩
  | refused => exact .inr (.inr ⟨by simp, rfl⟩)
  | lost => exact .inr (.inr ⟨by simp, rfl⟩)

/-- What is learnt to be held is held. -/
theorem holds_of_learns (hc : (informed baseDomain task known).Permits c)
    (h : learns task.1 c (System.respond c x s).1 (.held label)) :
    Asks label c ∧ Holds (System.respond c x s).2 label task.1 := by
  cases c with
  | hostLabels op =>
    simp only [System.respond] at h ⊢
    cases op with
    | findOne filter =>
      cases hfound : (serveStore (.findOne filter) x s.hostLabels).1 with
      | error e =>
        rw [hfound] at h
        exact h.elim
      | ok found =>
        rw [hfound] at h
        cases found with
        | none => cases h
        | some held =>
          obtain ⟨hstate, howner, hfact⟩ := h
          injection hfact with hlabel
          subst hlabel
          have hmem : ∀ held ∈ s.hostLabels.docs, held ∈ s.hostLabels.docs := fun _ h ↦ h
          obtain ⟨hfilter, hstored⟩ := answers_findOne hmem hfound
          have hsame : (serveStore (.findOne filter) x s.hostLabels).2 = s.hostLabels :=
            serveStore_of_isRead trivial
          rw [hsame]
          exact ⟨⟨held, rfl, hfilter⟩, held, hstored, rfl, hstate, howner⟩
    | insertOne held =>
      cases hc with
      | hold hstate howner hdot =>
        obtain ⟨hmem, hok⟩ | ⟨-, e, herror⟩ | ⟨-, herror⟩ := insert_cases held x s
        · rw [hok] at h
          injection h with hlabel
          subst hlabel
          exact ⟨rfl, held, hmem, rfl, hstate, howner⟩
        · rw [herror] at h
          cases h.2
        · rw [herror] at h
          cases h.2
      | release freed hreleases =>
        obtain ⟨time, hreleases⟩ := hreleases
        cases hreleases
      | reassign hreassigns =>
        obtain ⟨given, owner, time, hreassigns⟩ := hreassigns
        cases hreassigns
    | _ => exact h.elim
  | _ => exact h.elim

/-- What is learnt to be claimed is stored. -/
theorem stored_of_learns (hc : (informed baseDomain task known).Permits c) (hlaw : genuine c x s)
    (h : learns task.1 c (System.respond c x s).1 (.taken label)) :
    ∃ held ∈ (System.respond c x s).2.hostLabels.docs, held.label = label := by
  cases c with
  | hostLabels op =>
    cases op with
    | findOne filter =>
      simp only [System.respond] at h
      cases hfound : (serveStore (.findOne filter) x s.hostLabels).1 with
      | error e =>
        rw [hfound] at h
        exact h.elim
      | ok found =>
        rw [hfound] at h
        cases found with
        | none => cases h
        | some held => cases h.2.2
    | insertOne held =>
      simp only [System.respond] at h
      obtain ⟨-, hok⟩ | ⟨hstored, e, herror⟩ | ⟨hfault, herror⟩ := insert_cases held x s
      · rw [hok] at h
        cases h
      · rw [herror] at h
        injection h.2 with hlabel
        subst hlabel
        exact stored_respond hstored hc x
      · rw [herror] at h
        obtain ⟨hduplicate, hclaimed⟩ := hlaw hfault
        obtain hkey | hcode := h.1
        · rw [hduplicate] at hkey
          cases hkey
        · exact absurd hcode hclaimed
    | _ => exact h.elim
  | _ => exact h.elim

/-- A label that is asked for is known to be claimed, so it is found. -/
theorem not_learns_absent (hc : (informed baseDomain task known).Permits c)
    (hstored : ∀ label, known (.taken label) → ∃ held ∈ s.hostLabels.docs, held.label = label) :
    ¬ learns task.1 c (System.respond c x s).1 .absent := by
  intro h
  cases c with
  | hostLabels op =>
    simp only [System.respond] at h
    cases hc with
    | @find label htaken =>
      obtain ⟨held, hheld, hlabel⟩ := hstored label htaken
      rw [serveStore_findOne] at h
      split at h
      · cases hfound : s.hostLabels.docs.find? fun held ↦ held.label == label with
        | none =>
          have hmiss := find?_eq_none.mp hfound held hheld
          simp [hlabel] at hmiss
        | some found =>
          rw [hfound] at h
          cases h.2.2
      · exact h
    | @hold held hstate howner hdot =>
      obtain ⟨-, hok⟩ | ⟨-, e, herror⟩ | ⟨-, herror⟩ := insert_cases held x s
      · rw [hok] at h
        cases h
      · rw [herror] at h
        cases h.2
      · rw [herror] at h
        cases h.2
    | release freed hreleases =>
      obtain ⟨time, rfl⟩ := hreleases
      exact h
    | reassign hreassigns =>
      obtain ⟨given, owner, time, rfl⟩ := hreassigns
      exact h
  | _ => exact h

end Learning

/-! ## Runs -/

section Runs

variable {ι : Type} [DecidableEq ι] {law : SystemLaw} {deps : SystemDeps} {baseDomain : String}
  {tasks : ι → String × SystemOperation} {start : Pool systemSignature JsError System ι}

/--
What a run has to keep to: a label that an operation chose is held by its workspace when a host is
given under it, and a label is freed only when no host under it has an owner, and no operation that
asked about the label before gives a host under it afterwards.
-/
structure NamesInOrder (law : SystemLaw) (baseDomain : String)
    (tasks : ι → String × SystemOperation) (start : Pool systemSignature JsError System ι)
    (events : List (Event systemSignature Choice ι)) : Prop where
  chosen : ∀ before e after pool, events = before ++ e :: after →
    Pool.Run (system law) start before pool → ∀ label host, Gives baseDomain e.call label host →
      (tasks e.thread).2.Chooses baseDomain label →
        Holds pool.state (firstLabel host) (tasks e.thread).1
  freed : ∀ before e after pool, events = before ++ e :: after →
    Pool.Run (system law) start before pool → ∀ label, Frees label e.call →
      (∀ host workspaceId, Owns baseDomain pool.state host workspaceId → firstLabel host ≠ label) ∧
        ∀ later ∈ after, ∀ given host, Gives baseDomain later.call given host →
          firstLabel host = label → ∀ earlier ∈ before, earlier.thread = later.thread →
            ¬ Asks label earlier.call

variable {events : List (Event systemSignature Choice ι)}

theorem NamesInOrder.init {rest : List (Event systemSignature Choice ι)}
    (h : NamesInOrder law baseDomain tasks start (events ++ rest)) :
    NamesInOrder law baseDomain tasks start events where
  chosen before e after pool hsplit := h.chosen before e (after ++ rest) pool (by simp [hsplit])
  freed before e after pool hsplit hrun label hfrees := by
    obtain ⟨howners, hlater⟩ := h.freed before e (after ++ rest) pool (by simp [hsplit]) hrun label
      hfrees
    exact ⟨howners, fun later hmem ↦ hlater later (mem_append_left _ hmem)⟩

/-- A run is in order when its operations choose no name, and free no label. -/
theorem NamesInOrder.of_claimed (hchosen : ∀ i label, ¬ (tasks i).2.Chooses baseDomain label)
    (hfreed : ∀ e ∈ events, ∀ label, ¬ Frees label e.call) :
    NamesInOrder law baseDomain tasks start events where
  chosen _ e _ _ _ _ label _ _ hchooses := absurd hchooses (hchosen e.thread label)
  freed before e after _ hsplit _ label hfrees := by
    have hmem : e ∈ events := by simp [hsplit]
    exact absurd hfrees (hfreed e hmem label)

/-- The label was freed after the thread had asked about it. -/
def FreedSince (events : List (Event systemSignature Choice ι)) (i : ι) (label : String) : Prop :=
  ∃ before e after, events = before ++ e :: after ∧ Frees label e.call ∧
    ∃ earlier ∈ before, earlier.thread = i ∧ Asks label earlier.call

/-- What the threads know in a run, and that it is so. -/
structure KnownNames (baseDomain : String) (tasks : ι → String × SystemOperation)
    (events : List (Event systemSignature Choice ι)) (known : ι → Fact → Prop)
    (pool : Pool systemSignature JsError System ι) : Prop where
  justified : ∀ i, Justified (fun known ↦ (informed baseDomain (tasks i) known).systemTerms)
    (known i) (pool.threads i)
  stored : ∀ i label, known i (.taken label) ∨ known i (.held label) →
    ∃ held ∈ pool.state.hostLabels.docs, held.label = label
  absent : ∀ i, ¬ known i .absent
  asked : ∀ i label, known i (.held label) → ∃ e ∈ events, e.thread = i ∧ Asks label e.call
  held : ∀ i label, known i (.held label) →
    Holds pool.state label (tasks i).1 ∨ FreedSince events i label
  dotFree : DotFreeLabels pool.state
  owners : OwnersHold baseDomain pool.state

omit [DecidableEq ι] in
theorem FreedSince.append {i : ι} {label : String} (h : FreedSince events i label)
    (e : Event systemSignature Choice ι) : FreedSince (events ++ [e]) i label := by
  obtain ⟨before, freeing, after, hsplit, hfrees, hasked⟩ := h
  exact ⟨before, freeing, after ++ [e], by simp [hsplit], hfrees, hasked⟩

/-- A host is given only under a label that the mandate has in order. -/
theorem Gives.label {task : String × SystemOperation} {known : Fact → Prop} {c : SystemCall}
    {label host : String} (h : Gives baseDomain c label host)
    (hc : (informed baseDomain task known).Permits c) :
    known (.held label) ∨ known .absent ∨ task.2.Chooses baseDomain label := by
  cases h with
  | inserted subdomain nonempty => exact hc.label _ subdomain
  | revived subdomain nonempty => exact hc.1.label _ subdomain
  | registered under => exact hc.label under under.1

theorem Gives.firstLabel {c : SystemCall} {label host : String}
    (h : Gives baseDomain c label host) (hdot : DotFree label) : firstLabel host = label := by
  cases h with
  | inserted | revived => exact firstLabel_of_dotFree hdot
  | registered => rfl

variable {pool : Pool systemSignature JsError System ι}

/-- The host that a thread is about to give has a label that its workspace holds. -/
theorem KnownNames.gives {known : ι → Fact → Prop} {e : Event systemSignature Choice ι}
    (h : KnownNames baseDomain tasks events known pool)
    (run : Pool.Run (system law) start events pool)
    (horder : NamesInOrder law baseDomain tasks start (events ++ [e]))
    (hc : (informed baseDomain (tasks e.thread) (known e.thread)).Permits e.call)
    {label host : String} (hgives : Gives baseDomain e.call label host) :
    Holds pool.state (firstLabel host) (tasks e.thread).1 := by
  obtain hknown | habsent | hchosen := hgives.label hc
  · obtain ⟨stored, hstored, hlabel⟩ := h.stored e.thread label (.inr hknown)
    have hfirst : firstLabel host = label := hgives.firstLabel (hlabel ▸ h.dotFree stored hstored)
    obtain hholds | ⟨before, freeing, after, hsplit, hfrees, hasked⟩ := h.held e.thread label hknown
    · exact hfirst ▸ hholds
    · -- freed after the thread had asked: then the run is not in order
      obtain ⟨earlier, hearlier, hthread, hasks⟩ := hasked
      obtain ⟨pool₁, hrun⟩ := run.upTo hsplit
      have hfull : events ++ [e] = before ++ freeing :: (after ++ [e]) := by simp [hsplit]
      obtain ⟨-, hlater⟩ := horder.freed before freeing (after ++ [e]) pool₁ hfull hrun label hfrees
      have hlast : e ∈ after ++ [e] := by simp
      exact absurd hasks (hlater e hlast label host hgives hfirst earlier hearlier hthread)
  · exact absurd habsent (h.absent e.thread)
  · exact horder.chosen events e [] pool rfl run label host hgives hchosen

/-- One step: what the thread is answered is known from then on. -/
theorem KnownNames.step {known : ι → Fact → Prop} {pool' : Pool systemSignature JsError System ι}
    {e : Event systemSignature Choice ι} (h : KnownNames baseDomain tasks events known pool)
    (run : Pool.Run (system law) start events pool) (last : Pool.Step (system law) pool e pool')
    (hlaw : ∀ c x s, law c x s → genuine c x s)
    (horder : NamesInOrder law baseDomain tasks start (events ++ [e])) :
    ∃ known', KnownNames baseDomain tasks (events ++ [e]) known' pool' := by
  obtain ⟨hc, hjustified, hothers⟩ := last.justified (learns (tasks e.thread).1)
    (fun known c x s _ hc hknown ↦ informed_answers hc hknown) (h.justified e.thread)
  have hstate : pool'.state = (System.respond e.call e.choice pool.state).2 := by
    cases last
    rfl
  have hgenuine : genuine e.call e.choice pool.state := by
    obtain ⟨-, hpermitted⟩ := last
    exact hlaw _ _ _ hpermitted
  let learnt := learns (tasks e.thread).1 e.call (System.respond e.call e.choice pool.state).1
  have hstored : ∀ i label, known i (.taken label) ∨ known i (.held label) →
      ∃ held ∈ pool'.state.hostLabels.docs, held.label = label := by
    intro i label hknown
    rw [hstate]
    exact stored_respond (h.stored i label hknown) hc e.choice
  refine ⟨fun i fact ↦ known i fact ∨ i = e.thread ∧ learnt fact, ?_, ?_, ?_, ?_, ?_, ?_, ?_⟩
  · intro i
    by_cases hi : i = e.thread
    · subst hi
      exact hjustified.mono fun fact hfact ↦ hfact.imp_right fun hlearnt ↦ ⟨rfl, hlearnt⟩
    · rw [hothers i hi]
      exact (h.justified i).mono fun fact hfact ↦ .inl hfact
  · intro i label hknown
    obtain (hold | ⟨rfl, hlearnt⟩) | (hold | ⟨rfl, hlearnt⟩) := hknown
    · exact hstored i label (.inl hold)
    · rw [hstate]
      exact stored_of_learns hc hgenuine hlearnt
    · exact hstored i label (.inr hold)
    · obtain ⟨-, held, hmem, hlabel, -⟩ := holds_of_learns hc hlearnt
      rw [hstate]
      exact ⟨held, hmem, hlabel⟩
  · intro i habsent
    obtain hold | ⟨rfl, hlearnt⟩ := habsent
    · exact h.absent i hold
    · exact not_learns_absent hc (fun label htaken ↦ h.stored e.thread label (.inl htaken)) hlearnt
  · intro i label hknown
    obtain hold | ⟨rfl, hlearnt⟩ := hknown
    · obtain ⟨earlier, hmem, hthread, hasks⟩ := h.asked i label hold
      exact ⟨earlier, mem_append_left _ hmem, hthread, hasks⟩
    · exact ⟨e, by simp, rfl, (holds_of_learns hc hlearnt).1⟩
  · intro i label hknown
    obtain hold | ⟨rfl, hlearnt⟩ := hknown
    · obtain hholds | hfreed := h.held i label hold
      · by_cases hfrees : Frees label e.call
        · -- what the thread asked for is freed by this very call
          obtain ⟨earlier, hmem, hthread, hasks⟩ := h.asked i label hold
          exact .inr ⟨events, e, [], rfl, hfrees, earlier, hmem, hthread, hasks⟩
        · rw [hstate]
          exact .inl (hholds.respond hc hfrees e.choice)
      · exact .inr (hfreed.append e)
    · rw [hstate]
      exact .inl (holds_of_learns hc hlearnt).2
  · rw [hstate]
    exact h.dotFree.respond hc e.choice
  · rw [hstate]
    apply h.owners.respond hc
    · exact fun label host hgives ↦ h.gives run horder hc hgives
    · exact fun label hfrees ↦ (horder.freed events e [] pool rfl run label hfrees).1

omit [DecidableEq ι] in
theorem knownNames_init {deps : SystemDeps} {s : System} (hlabels : DotFreeLabels s)
    (howners : OwnersHold baseDomain s) :
    KnownNames baseDomain tasks [] (fun _ _ ↦ False) (SystemOperation.pool deps tasks s) where
  justified i := program_justified deps baseDomain (tasks i)
  stored _ _ hknown := hknown.elim False.elim False.elim
  absent _ := id
  asked _ _ := False.elim
  held _ _ := False.elim
  dotFree := hlabels
  owners := howners

/-- A whole run in order, one step after the other. -/
theorem knownNames_run {deps : SystemDeps} {s : System} (hlabels : DotFreeLabels s)
    (howners : OwnersHold baseDomain s) (hlaw : ∀ c x s, law c x s → genuine c x s)
    (run : Pool.Run (system law) (SystemOperation.pool deps tasks s) events pool)
    (horder : NamesInOrder law baseDomain tasks (SystemOperation.pool deps tasks s) events) :
    ∃ known, KnownNames baseDomain tasks events known pool := by
  generalize hstart : SystemOperation.pool deps tasks s = start at run horder
  induction run with
  | start => exact ⟨_, hstart ▸ knownNames_init hlabels howners⟩
  | step run last ih =>
    obtain ⟨known, hknown⟩ := ih horder.init
    exact hknown.step run last hlaw horder

end Runs

/--
In every run of any operations of any workspaces in which the names that operations choose are held
by their workspaces, and no label is freed that an app or a row still needs, the hosts below the
base domain have one owner each, and every owner holds the label.
-/
theorem labels_owned {ι : Type} [DecidableEq ι] (deps : SystemDeps) (baseDomain : String)
    (tasks : ι → String × SystemOperation) (s : System) (hlabels : DotFreeLabels s)
    (howners : OwnersHold baseDomain s) (events : List (Event systemSignature Choice ι))
    (pool : Pool systemSignature JsError System ι)
    (run : Pool.Run (system genuine) (SystemOperation.pool deps tasks s) events pool)
    (horder : NamesInOrder genuine baseDomain tasks (SystemOperation.pool deps tasks s) events) :
    LabelsOwned baseDomain pool.state := by
  have hgenuine : ∀ c x s, genuine c x s → genuine c x s := fun _ _ _ ↦ id
  obtain ⟨known, hknown⟩ := knownNames_run hlabels howners hgenuine run horder
  exact hknown.owners.labelsOwned

namespace Sample

/-- `globex` reserves a tenant host, and `acme` deploys an app under the label of that host. -/
def chosenLabel : McpDeploymentGrantPayloadV3 where
  jti := "jti"
  clusterId := "cluster"
  workspaceId := "acme"
  deploymentId := "deployment"
  generationId := "generation"
  generationNumber := 1
  runtimeInstallationId := "installation"
  mcpAppId := "mcp-app"
  approvalReceiptHash := "receipt"
  approvedPermissionCeilingHash := "ceiling"
  authorizationEpoch := 1
  configEpoch := none
  hubOrigin := "https://hub.test"
  deployment :=
    { clusterAppId := "notes"
      listingId := "listing"
      versionDigest := PrivosCluster.Sample.digest 'a'
      image := "registry/notes"
      imageDigest := PrivosCluster.Sample.digest 'b'
      manifestDigest := PrivosCluster.Sample.digest 'c'
      resourceManifestHash := "resources"
      port := 8080
      resources := ⟨256, 1, 64⟩
      envVars := []
      secretEnvKeys := none
      volumes := []
      availabilityTier := .single
      stateless := true
      subdomain := some "notes"
      domain := none }

def collidingTasks (i : Fin 2) : String × SystemOperation :=
  if i = 0 then ("globex", .reserve "app" "listing" "notes.example.com" .tenant)
  else ("acme", .deployMcpV3 chosenLabel "hash" ⟨"hub", Sample.jwk⟩)

instance (c : SystemCall) (x : Choice) (s : System) :
    Decidable ((system genuine).permits c x s) :=
  inferInstanceAs (Decidable (_ → _))

def reservation (_ : Unit) : String × SystemOperation :=
  ("acme", .reserve "app" "listing" "notes.example.com" .tenant)

def isUpdate : SystemCall → Bool
  | .hostLabels (.updateOne _ _) => true
  | _ => false

theorem frees_isUpdate {label : String} {c : SystemCall}
    (h : Frees label c) : isUpdate c = true := by
  cases c with
  | hostLabels op =>
    obtain ⟨time, rfl⟩ := h
    rfl
  | _ => exact h.elim

theorem vacant_dotFree : DotFreeLabels vacant := fun _ h ↦ nomatch h

theorem vacant_owners (baseDomain : String) : OwnersHold baseDomain vacant := by
  intro host workspaceId howns
  cases howns with
  | app stored => cases stored
  | row stored => cases stored

end Sample

/-- A workspace reserves a host that nobody has. -/
theorem labels_owned_reservation :
    let reserved := Pool.play (system genuine) Sample.answered (replicate 10 ())
      (SystemOperation.pool Sample.systemDeps Sample.reservation Sample.vacant)
    reserved.2.state.appHosts.docs.length = 1 ∧ LabelsOwned "example.com" reserved.2.state := by
  intro reserved
  constructor
  · decide +kernel
  · have hclaims : reserved.1.all (fun e ↦ !Sample.isUpdate e.call) = true := by decide +kernel
    apply labels_owned Sample.systemDeps "example.com" Sample.reservation Sample.vacant
      Sample.vacant_dotFree (Sample.vacant_owners _) reserved.1 reserved.2 (Pool.run_play _ _ _)
    apply NamesInOrder.of_claimed
    · intro i label hchooses
      cases hchooses.1
    · intro e he label hfrees
      have hkept := List.all_eq_true.mp hclaims e he
      simp [Sample.frees_isUpdate hfrees] at hkept

/-- An app under a label that its grant chose, beside the row of the workspace that holds it. -/
theorem chosen_label_collides :
    let collided := Pool.play (system genuine) Sample.answered
      (replicate 10 0 ++ replicate 14 1)
      (SystemOperation.pool Sample.systemDeps Sample.collidingTasks Sample.vacant)
    DotFreeLabels Sample.vacant ∧ OwnersHold "example.com" Sample.vacant ∧
      Pool.Run (system genuine)
        (SystemOperation.pool Sample.systemDeps Sample.collidingTasks Sample.vacant)
        collided.1 collided.2 ∧
      ¬ LabelsOwned "example.com" collided.2.state := by
  intro collided
  refine ⟨Sample.vacant_dotFree, Sample.vacant_owners _, Pool.run_play _ _ _, fun h ↦ ?_⟩
  have happ : ∃ app ∈ collided.2.state.world.apps.docs,
      app.workspaceId = "acme" ∧ app.subdomain = some "notes" := by decide +kernel
  have hrow : ∃ row ∈ collided.2.state.appHosts.docs,
      row.workspaceId = "globex" ∧ row.hostname = "notes.example.com" := by decide +kernel
  obtain ⟨app, hstored, hacme, hlabel⟩ := happ
  obtain ⟨row, hregistered, hglobex, hhostname⟩ := hrow
  have howns : Owns "example.com" collided.2.state "notes.example.com" "acme" :=
    hacme ▸ .app hstored hlabel (by decide)
  have hunder : UnderBase "example.com" row.hostname := by
    rw [hhostname]
    exact ⟨by decide, "notes", by decide⟩
  have hother : Owns "example.com" collided.2.state "notes.example.com" "globex" := by
    rw [← hglobex, ← hhostname]
    exact .row hregistered hunder
  exact absurd (h.unique _ _ _ howns hother) (by decide)

end PrivosCluster.Routing
