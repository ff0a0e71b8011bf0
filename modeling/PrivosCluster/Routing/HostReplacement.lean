import PrivosCluster.Routing.LabelOwnership
import PrivosCluster.Routing.RegistryWrites

/-!
# A replacement of hosts that fails

The full set of hosts of an app is replaced host by host, each with its own checks and writes, and a
failure undoes nothing. So a replacement that throws leaves the rows of the app as they were only
where no host is written before any failure can occur.
-/

namespace PrivosCluster.Routing

open AsyncProgram DocumentStore List AppHostRegistry LabelNamespace

/-- A row of the app that is not being deleted. -/
def isLiveOf (workspaceId appId : String) (row : AppHostRecord) : Bool :=
  row.workspaceId == workspaceId && row.appId == appId && row.state != .deleting

/-- A row of the app that is being deleted and has nothing left to tear down. -/
def isDeadOf (workspaceId appId : String) (row : AppHostRecord) : Bool :=
  row.workspaceId == workspaceId && row.appId == appId && row.state == .deleting &&
    row.cfHostnameId.isNone

def liveRows (workspaceId appId : String) (s : System) : List AppHostRecord :=
  s.appHosts.docs.filter (isLiveOf workspaceId appId)

/-- The label is claimed, and not by the workspace. -/
def ForeignLabel (workspaceId label : String) (s : System) : Prop :=
  ∃ held ∈ s.hostLabels.docs,
    held.label = label ∧ ¬ (held.state = .held ∧ held.workspaceId = some workspaceId)

/-- The host is new to the app, and its label or its hostname belongs to somebody else. -/
structure RefusesHost (input : AppHostRegistry.SetDesiredHostsInput) (host : DesiredAppHost)
    (s : System) : Prop where
  isNew : ∀ row ∈ liveRows input.workspaceId input.appId s, row.hostname ≠ host.hostname
  taken : (∃ label, truthy (namespaceLabelOf host.hostname host.kind) = some label ∧
      ForeignLabel input.workspaceId label s) ∨
    ∃ row ∈ s.appHosts.docs, row.hostname = host.hostname ∧
      isDeadOf input.workspaceId input.appId row = false

/-- Nothing is written to the rows of the app before a failure: the request is malformed, or there
is nothing to write, or its first host is refused. -/
inductive FailsFirst (input : AppHostRegistry.SetDesiredHostsInput) (s : System) : Prop
  | primaries (several : 1 < (input.hosts.filter (·.primary)).length)
  | nothing (none : input.hosts = []) (vacant : liveRows input.workspaceId input.appId s = [])
  | refused {host : DesiredAppHost} {rest : List DesiredAppHost} (first : input.hosts = host :: rest)
    (refuses : RefusesHost input host s)

/-! ## Clashes of identities -/

theorem clash_of_id {α κ : Type} {keys : α → List IndexKey} (I : Identity α κ keys)
    {c : Collection α keys} {d d' : α} (hd' : d' ∈ c.docs) (hid : I.id d' = I.id d) :
    ¬ ((c.docs ++ [d]).flatMap keys).Nodup := by
  intro hunique
  rw [flatMap_append] at hunique
  have hdisjoint := (nodup_append'.mp hunique).2.2
  have hbefore : I.key (I.id d') ∈ c.docs.flatMap keys :=
    mem_flatMap.mpr ⟨d', hd', I.indexed d'⟩
  have hadded : I.key (I.id d') ∈ [d].flatMap keys := by
    rw [hid]
    simpa using I.indexed d
  exact hdisjoint hbefore hadded

variable {row : AppHostRecord} {workspaceId hostname : String} {conflict : String → JsError}
  {kind : AppHostKind} {rest : List DesiredAppHost} {Q : Except JsError Unit → System → Prop}

/-- A row without a custom hostname clashes only with a row of its hostname. -/
theorem unique_of_new {rows : Collection AppHostRecord appHostKeys} (hcf : row.cfHostnameId = none)
    (hnew : ∀ other ∈ rows.docs, other.hostname ≠ row.hostname) :
    ((rows.docs ++ [row]).flatMap appHostKeys).Nodup := by
  have hkeys : appHostKeys row = [⟨["_id"], [row.hostname]⟩] := by simp [appHostKeys, hcf]
  rw [flatMap_append]
  apply rows.unique.append
  · simp [hkeys]
  · intro key hkey hrow
    obtain ⟨other, hother, hkey⟩ := mem_flatMap.mp hkey
    have hid : key = ⟨["_id"], [row.hostname]⟩ := by simpa [hkeys] using hrow
    subst hid
    have hsame : row.hostname = other.hostname := by simpa [appHostKeys] using hkey
    exact hnew other hother hsame.symm

theorem insert_of_clash {α : Type} [DecidableEq α] {keys : α → List IndexKey}
    {c : Collection α keys} {d : α} (h : ¬ ((c.docs ++ [d]).flatMap keys).Nodup) (x : Choice) :
    ∃ e, serveStore (.insertOne d) x c = (.error e, c) := by
  have hstate := serveStore_insertOne_of_clash (x := x) (.inr h)
  cases hanswer : (serveStore (.insertOne d) x c).1 with
  | error e => exact ⟨e, Prod.ext hanswer hstate⟩
  | ok answer =>
    obtain hadded | ⟨-, hrefused⟩ := serveStore_insertOne_cases d x c
    · rw [hstate] at hadded
      simp at hadded
    · exact absurd hanswer (hrefused answer)

/-! ## Executions of the registry -/

/-- Where anything may happen, every execution that comes to its end ends in `Q`. -/
abbrev Finishes {α : Type} (Q : Except JsError α → System → Prop) (p : Action α) (s : System) : Prop :=
  wp (system fun _ _ _ ↦ True) (fun _ _ _ ↦ True) Q p s

/-- What is left of a sequence when its first half has ended. -/
abbrev Continues {α β : Type} (Q : Except JsError β → System → Prop) (f : α → Action β) :
    Except JsError α → System → Prop :=
  andThen (system fun _ _ _ ↦ True) (fun _ _ _ ↦ True) Q f

def System.tick (s : System) (elapsed : Nat) : System :=
  { s with world := { s.world with clock := s.world.clock + elapsed } }

section Executions

variable {α β : Type} {s : System}

theorem finishes_await {c : SystemCall} {Q : Except JsError c.Answer → System → Prop} :
    Finishes Q (await c) s ↔ ∀ x, Q (System.respond c x s).1 (System.respond c x s).2 := by
  constructor
  · exact fun h x ↦ (wp_ask.mp h x trivial).2
  · exact fun h ↦ wp_ask.mpr fun x _ ↦ ⟨trivial, h x⟩

theorem finishes_now {Q : Except JsError Time → System → Prop} :
    Finishes Q systemNow s ↔ ∀ elapsed : Nat, Q (.ok (s.world.clock + elapsed)) (s.tick elapsed) := by
  constructor
  · exact fun h elapsed ↦ finishes_await.mp h { elapsed := elapsed }
  · exact fun h ↦ finishes_await.mpr fun x ↦ h x.elapsed

theorem finishes_bind {Q : Except JsError β → System → Prop} {p : Action α} {f : α → Action β} :
    Finishes Q (p >>= f) s ↔ Finishes (Continues Q f) p s := wp_bind

theorem finishes_settle {Q : Except JsError (Except JsError α) → System → Prop} {p : Action α} :
    Finishes Q p.settle s ↔ Finishes (fun r ↦ Q (.ok r)) p s := wp_settle

/-- What every call of an action keeps holds at its end. -/
theorem finishes_of_asks {P : SystemCall → Prop} {I : System → Prop} {p : Action α}
    (hp : AsyncProgram.Asks P p) (hkeep : ∀ c x s, P c → I s → I (System.respond c x s).2) (hs : I s) :
    Finishes (fun _ s' ↦ I s') p s := by
  induction p generalizing s with
  | pure a => exact hs
  | throw e => exact hs
  | call c k ih => exact fun x _ ↦ ⟨trivial, ih _ (hp.2 _) (hkeep c x s hp.1 hs)⟩

end Executions

/-! ## A refused host -/

/-- The rows and the labels are the same. -/
structure SameNames (s s' : System) : Prop where
  appHosts : s'.appHosts = s.appHosts
  hostLabels : s'.hostLabels = s.hostLabels

theorem SameNames.trans {s s' s'' : System} (h : SameNames s s') (h' : SameNames s' s'') :
    SameNames s s'' :=
  ⟨h'.appHosts.trans h.appHosts, h'.hostLabels.trans h.hostLabels⟩

theorem ForeignLabel.of_same {label : String} {s s' : System} (h : ForeignLabel workspaceId label s)
    (hsame : SameNames s s') : ForeignLabel workspaceId label s' := by
  unfold ForeignLabel
  rwa [hsame.hostLabels]

section Refused

variable {s : System} {label : String} {owner : LabelOwner}

/-- A label that is claimed cannot be held. -/
theorem hold_refused (h : ∃ held ∈ s.hostLabels.docs, held.label = label) :
    Finishes (fun r s' ↦ SameNames s s' ∧ ∃ e, r = .error e) (LabelNamespace.hold label owner) s := by
  obtain ⟨held, hheld, hlabel⟩ := h
  apply finishes_bind.mpr
  apply finishes_now.mpr
  intro elapsed
  apply finishes_bind.mpr
  apply finishes_settle.mpr
  apply finishes_await.mpr
  intro x
  have hclash := clash_of_id hostLabelIdentity (c := s.hostLabels) (d :=
    { label, state := .held, workspaceId := some owner.workspaceId,
      listingId := some owner.listingId, createdAt := s.world.clock + elapsed,
      updatedAt := s.world.clock + elapsed }) hheld hlabel
  obtain ⟨e, hinsert⟩ := insert_of_clash hclash x
  have hlabels : (s.tick elapsed).hostLabels = s.hostLabels := rfl
  simp only [System.respond, hlabels, hinsert]
  exact ⟨⟨rfl, rfl⟩, _, rfl⟩

/-- The document that a query by its label finds. -/
theorem find_label {held : HostLabelRecord} (hheld : held ∈ s.hostLabels.docs)
    (hlabel : held.label = label) :
    s.hostLabels.docs.find? (fun held ↦ held.label == label) = some held := by
  have hfilter : ∀ held : HostLabelRecord, (held.label == label) →
      hostLabelIdentity.id held = label := fun _ h ↦ beq_iff_eq.mp h
  rw [Collection.find?_docs hfilter]
  have hlookup : s.hostLabels.lookup hostLabelIdentity label = some held :=
    Collection.lookup_eq_some.mpr ⟨hheld, hlabel⟩
  simp [hlookup, hlabel]

/-- A label of somebody else is not available. -/
theorem isAvailableFor_refused (h : ForeignLabel workspaceId label s) :
    Finishes (fun r s' ↦ SameNames s s' ∧ r ≠ .ok true)
      (isAvailableFor label workspaceId) s := by
  obtain ⟨held, hheld, hlabel, hforeign⟩ := h
  apply finishes_bind.mpr
  apply finishes_await.mpr
  intro x
  simp only [System.respond, serveStore_findOne, find_label hheld hlabel]
  split
  · refine ⟨⟨rfl, rfl⟩, ?_⟩
    intro hok
    have havailable := Except.ok.inj hok
    simp only [Option.all_some, Bool.and_eq_true, beq_iff_eq] at havailable
    exact hforeign havailable
  · exact ⟨⟨rfl, rfl⟩, fun hok ↦ by cases hok⟩

theorem claimLabel_refused {conflict : JsError} (h : ForeignLabel owner.workspaceId label s) :
    Finishes (fun r s' ↦ SameNames s s' ∧ ∃ e, r = .error e)
      (claimLabel label owner conflict) s := by
  have hheld : ∃ held ∈ s.hostLabels.docs, held.label = label := by
    obtain ⟨held, hheld, hlabel, -⟩ := h
    exact ⟨held, hheld, hlabel⟩
  apply finishes_bind.mpr
  apply finishes_settle.mpr
  apply (hold_refused hheld).imp
  rintro _ s' ⟨hsame, error, rfl⟩
  change Finishes _ (if _ then _ else _) s'
  split
  · exact ⟨hsame, error, rfl⟩
  · apply finishes_bind.mpr
    apply (isAvailableFor_refused (h.of_same hsame)).imp
    rintro r s'' ⟨hsame', hr⟩
    cases r with
    | error e => exact ⟨hsame.trans hsame', e, rfl⟩
    | ok available =>
      have hfalse : available = false := by
        rw [← Bool.not_eq_true]
        exact fun htrue ↦ hr (htrue ▸ rfl)
      subst hfalse
      exact ⟨hsame.trans hsame', conflict, rfl⟩

/-- A call that is not about the rows. -/
def SparesRows : SystemCall → Prop
  | .appHosts _ => False
  | _ => True

theorem respond_appHosts {c : SystemCall} (hc : SparesRows c) (x : Choice) (s : System) :
    (System.respond c x s).2.appHosts = s.appHosts := by
  cases c with
  | appHosts op => exact hc.elim
  | _ => rfl

theorem claimLabelOf_keeps :
    Finishes (fun _ s' ↦ s'.appHosts = s.appHosts)
      (claimLabelOf hostname kind owner conflict) s :=
  finishes_of_asks (claimLabelOf_asks (P := SparesRows) trivial fun _ ↦ trivial)
    (fun _ x s hc hs ↦ (respond_appHosts hc x s).trans hs) rfl

/-- A row whose hostname is registered is not inserted. -/
theorem insertRow_refused (h : ∃ other ∈ s.appHosts.docs, other.hostname = row.hostname) :
    Finishes (fun r s' ↦ s'.appHosts = s.appHosts ∧ ∃ e, r = .error e)
      (insertRow row) s := by
  obtain ⟨other, hother, hhostname⟩ := h
  apply finishes_bind.mpr
  apply finishes_settle.mpr
  apply finishes_await.mpr
  intro x
  obtain ⟨e, hinsert⟩ := insert_of_clash (clash_of_id appHostIdentity hother hhostname) x
  simp only [System.respond, serveBulk_one, hinsert]
  exact ⟨rfl, _, rfl⟩

variable {input : AppHostRegistry.SetDesiredHostsInput} {host : DesiredAppHost}
  {current : List AppHostRecord} {time : Time}

/-- A refused host throws before a row is written. -/
theorem writeHost_refused (hcurrent : ∀ row ∈ current, row.hostname ≠ host.hostname)
    (htaken : (∃ label, truthy (namespaceLabelOf host.hostname host.kind) = some label ∧
        ForeignLabel input.workspaceId label s) ∨
      ∃ row ∈ s.appHosts.docs, row.hostname = host.hostname) :
    Finishes (fun r s' ↦ s'.appHosts = s.appHosts ∧ ∃ e, r = .error e)
      (writeHost input current time host) s := by
  have hfind : current.find? (·.hostname == host.hostname) = none := by
    rw [find?_eq_none]
    intro row hrow
    simpa using hcurrent row hrow
  unfold writeHost
  rw [hfind]
  apply finishes_bind.mpr
  obtain ⟨label, hlabel, hforeign⟩ | ⟨row, hrow, hhostname⟩ := htaken
  · unfold claimLabelOf
    rw [hlabel]
    have hforeign' : ForeignLabel (LabelOwner.mk input.workspaceId input.listingId).workspaceId label
        s := hforeign
    apply (claimLabel_refused hforeign').imp
    rintro _ s' ⟨hsame, error, rfl⟩
    exact ⟨hsame.appHosts, error, rfl⟩
  · apply claimLabelOf_keeps.imp
    intro r s' hkept
    cases r with
    | error e => exact ⟨hkept, e, rfl⟩
    | ok _ =>
      apply finishes_bind.mpr
      have hstored : ∃ other ∈ s'.appHosts.docs,
          other.hostname = (desiredRow input host time).hostname :=
        ⟨row, hkept ▸ hrow, hhostname⟩
      apply (insertRow_refused hstored).imp
      rintro _ s'' ⟨hkept', error, rfl⟩
      exact ⟨hkept'.trans hkept, error, rfl⟩

end Refused

/-! ## Replacements that fail first -/

/-- If the action throws, the rows of the app are as given. -/
def Spared {α : Type} (input : AppHostRegistry.SetDesiredHostsInput) (rows : List AppHostRecord)
    (r : Except JsError α) (s : System) : Prop :=
  ∀ e, r = .error e → liveRows input.workspaceId input.appId s = rows

/-- A failing action leaves the rows of the app as they are in a state. -/
abbrev Spares (input : AppHostRegistry.SetDesiredHostsInput) (s : System) {α : Type} :=
  Finishes (Spared (α := α) input (liveRows input.workspaceId input.appId s))

section Replacement

variable {input : AppHostRegistry.SetDesiredHostsInput} {s : System}

/-- The removal of dead rows leaves all other rows of the app, and of others. -/
theorem dead_removed (input : AppHostRegistry.SetDesiredHostsInput) (s : System) (x : Choice) :
    let s' := (System.respond (.appHosts (.deleteMany (isDeadOf input.workspaceId input.appId))) x s).2
    liveRows input.workspaceId input.appId s' = liveRows input.workspaceId input.appId s ∧
      s'.hostLabels = s.hostLabels ∧
      ∀ row ∈ s.appHosts.docs, isDeadOf input.workspaceId input.appId row = false →
        row ∈ s'.appHosts.docs := by
  have hspares : (BulkOperation.deleteMany (isDeadOf input.workspaceId input.appId)).Spares
      (isLiveOf input.workspaceId input.appId) s.appHosts.docs := by
    intro row _ hdead
    simp only [isDeadOf, Bool.and_eq_true, beq_iff_eq] at hdead
    simp [isLiveOf, hdead.1.2]
  refine ⟨?_, rfl, ?_⟩
  · exact serveBulk_applies (P := fun rows ↦ rows.docs.filter _ = _) _ x rfl
      (Collection.filter_applyBulk hspares)
  · intro row hrow hdead
    apply serveBulk_applies (P := fun rows ↦ row ∈ rows.docs) _ x hrow
    exact mem_filter.mpr ⟨hrow, by simp [hdead]⟩

/-- What is done for the hosts, once the dead rows are removed and the rows of the app are read. -/
def writeHosts (input : AppHostRegistry.SetDesiredHostsInput) (current : List AppHostRecord)
    (time : Time) : Action (List AppHostRecord) := do
  let written ← Program.mapEach (AppHostRegistry.writeHost input current time) input.hosts
  let removed := current.filter fun row ↦ !(input.hosts.map (·.hostname)).contains row.hostname
  Program.onlyIf (removed ≠ []) do
    let _ ← AppHostRegistry.retire (fun row ↦ (removed.map (·.hostname)).contains row.hostname) time
    .pure ()
  .pure (written ++ removed.map (AppHostRegistry.retiredAs time))

theorem replaceHosts_eq :
    replaceHosts input = (do
      let _ ← AppHosts.deleteMany (isDeadOf input.workspaceId input.appId)
      let current ← AppHosts.find (isLiveOf input.workspaceId input.appId)
      let time ← systemNow
      writeHosts input current time) := rfl

/-- A replacement spares the rows of the app when the writing of the hosts does. -/
theorem replaceHosts_spared
    (h : ∀ s' time, liveRows input.workspaceId input.appId s' =
        liveRows input.workspaceId input.appId s → s'.hostLabels = s.hostLabels →
      (∀ row ∈ s.appHosts.docs, isDeadOf input.workspaceId input.appId row = false →
        row ∈ s'.appHosts.docs) →
      Spares input s (writeHosts input (liveRows input.workspaceId input.appId s) time) s') :
    Spares input s (replaceHosts input) s := by
  rw [replaceHosts_eq]
  apply finishes_bind.mpr
  apply finishes_await.mpr
  intro x
  obtain ⟨hlive, hlabels, hkept⟩ := dead_removed input s x
  generalize (System.respond (.appHosts (.deleteMany
    (isDeadOf input.workspaceId input.appId))) x s) = deleted at hlive hlabels hkept ⊢
  obtain ⟨answer, s₁⟩ := deleted
  cases answer with
  | error e => exact fun _ _ ↦ hlive
  | ok count =>
    apply finishes_bind.mpr
    apply finishes_await.mpr
    intro x'
    simp only [System.respond, serveBulk_one, serveStore_find]
    split
    · apply finishes_bind.mpr
      apply finishes_now.mpr
      intro elapsed
      have hcurrent : s₁.appHosts.docs.filter (isLiveOf input.workspaceId input.appId) =
          liveRows input.workspaceId input.appId s := hlive
      simp only [andThen_ok, hcurrent]
      exact h (s₁.tick elapsed) _ hlive hlabels hkept
    · exact fun _ _ ↦ hlive

/-- A first host that is refused ends the replacement before a row is written. -/
theorem writeHosts_refused {host : DesiredAppHost} {current : List AppHostRecord} {time : Time}
    (hfirst : input.hosts = host :: rest) (hcurrent : ∀ row ∈ current, row.hostname ≠ host.hostname)
    (htaken : (∃ label, truthy (namespaceLabelOf host.hostname host.kind) = some label ∧
        ForeignLabel input.workspaceId label s) ∨
      ∃ row ∈ s.appHosts.docs, row.hostname = host.hostname) :
    Spares input s (writeHosts input current time) s := by
  have hwrite : Finishes _ (writeHost input current time host) s :=
    writeHost_refused hcurrent htaken
  unfold writeHosts
  rw [hfirst]
  apply finishes_bind.mpr
  apply finishes_bind.mpr
  apply hwrite.imp
  rintro _ s' ⟨hkept, error, rfl⟩ e he
  unfold liveRows
  rw [hkept]

theorem writeHosts_nothing {time : Time} (hnone : input.hosts = []) :
    Spares input s (writeHosts input [] time) s := by
  unfold writeHosts
  rw [hnone]
  exact nofun

/-- The lock of the workspace is the only thing that a `locked` action changes by itself. -/
theorem locked_spared {rows : List AppHostRecord} {p : Action (List AppHostRecord)}
    (h : ∀ s', s'.appHosts = s.appHosts → s'.hostLabels = s.hostLabels →
      Finishes (Spared input rows) p s') :
    Finishes (Spared input rows) (locked input.workspaceId p) s := by
  apply finishes_bind.mpr
  apply finishes_await.mpr
  intro x
  apply wp_finallyDo.mpr
  have hp := h (System.respond (.master (.acquire input.workspaceId)) x s).2 rfl rfl
  apply hp.imp
  intro r s' hr
  apply finishes_await.mpr
  intro x'
  exact hr

theorem announce_ok {deps : RegistryDeps} {cfWorker : Bool} :
    Finishes (fun r _ ↦ r = .ok ()) (announce deps cfWorker) s := by
  have hnotify : ∀ s', Finishes (fun r _ ↦ r = .ok ())
      (Program.onlyIf (deps.cfWorker ∧ cfWorker) (await .notify)) s' := by
    intro s'
    apply wp_onlyIf.mpr
    split
    · exact finishes_await.mpr fun _ ↦ rfl
    · rfl
  apply finishes_bind.mpr
  apply wp_onlyIf.mpr
  split
  · exact finishes_await.mpr fun _ ↦ hnotify _
  · exact hnotify s

/-- A request that fails first leaves the rows of the app as they were, when it throws. -/
theorem setDesiredHosts_spared {deps : RegistryDeps} (h : FailsFirst input s) :
    Spares input s (AppHostRegistry.setDesiredHosts deps input) s := by
  have hannounce : ∀ rows s', Spares input s (do
        announce deps true
        .pure rows : Action (List AppHostRecord)) s' := by
    intro rows s'
    apply finishes_bind.mpr
    apply announce_ok.imp
    rintro _ s'' rfl
    exact nofun
  apply finishes_bind.mpr
  apply wp_throwIf.mpr
  split
  next hseveral => exact fun _ _ ↦ rfl
  next hsingle =>
    apply finishes_bind.mpr
    have hreplace : Spares input s
        (locked input.workspaceId (replaceHosts input)) s := by
      apply locked_spared
      intro s' hrows hlabels
      have hlive : liveRows input.workspaceId input.appId s' =
          liveRows input.workspaceId input.appId s := by
        unfold liveRows
        rw [hrows]
      rw [← hlive]
      apply replaceHosts_spared
      intro s'' time hlive' hlabels' hkept
      unfold Spares
      cases h with
      | primaries several => exact absurd several hsingle
      | nothing none vacant =>
        rw [← hlive', hlive'.trans (hlive.trans vacant)]
        have hvacant : Finishes _ (writeHosts input [] time) s'' := writeHosts_nothing none
        rwa [hlive'.trans (hlive.trans vacant)] at hvacant
      | refused first refuses =>
        rw [← hlive']
        apply writeHosts_refused first
        · rw [hlive'.trans hlive]
          exact refuses.isNew
        · obtain ⟨label, hlabel, hforeign⟩ | ⟨row, hrow, hhostname, hdead⟩ := refuses.taken
          · refine .inl ⟨label, hlabel, ?_⟩
            unfold ForeignLabel
            rwa [hlabels', hlabels]
          · exact .inr ⟨row, hkept row (hrows ▸ hrow) hdead, hhostname⟩
    apply hreplace.imp
    intro r s' hr
    cases r with
    | error e => exact fun e' he ↦ hr e' (congrArg _ (Except.error.inj he))
    | ok rows => exact hannounce rows s'

end Replacement

/-! ## Replacements that do not -/

section Written

variable {input : AppHostRegistry.SetDesiredHostsInput} {deps : RegistryDeps} {s : System}

/-- An insertion that meets no fault fails on a clash alone. -/
theorem insert_undisturbed {α : Type} [DecidableEq α] {keys : α → List IndexKey}
    (c : Collection α keys) (d : α) :
    (¬ ((c.docs ++ [d]).flatMap keys).Nodup ∧
      ∃ fields, serveStore (.insertOne d) {} c = (.error (writeError (.duplicateKey fields)), c)) ∨
      ∃ c', serveStore (.insertOne d) {} c = (.ok (), c') := by
  by_cases hunique : ((c.docs ++ [d]).flatMap keys).Nodup
  · refine .inr ⟨⟨_, hunique⟩, ?_⟩
    simp only [serveStore, Collection.apply, Collection.put, dif_pos hunique]
    rfl
  · refine .inl ⟨hunique, ?_⟩
    have hclash : ∃ fields, Collection.clash keys 0 (c.docs ++ [d]) d = .duplicateKey fields := by
      simp only [Collection.clash]
      split
      · exact ⟨_, rfl⟩
      · exact ⟨_, rfl⟩
    obtain ⟨fields, hfields⟩ := hclash
    refine ⟨fields, ?_⟩
    simp only [serveStore, Collection.apply, Collection.put, dif_neg hunique, hfields]
    rfl

/-- A label that the workspace holds is available to it. -/
theorem isAvailableFor_passes {label : String} (hown : ¬ ForeignLabel workspaceId label s)
    {Q : Except JsError Bool → System → Prop}
    (h : Finishes Q (isAvailableFor label workspaceId) s) :
    ∃ s', s'.appHosts = s.appHosts ∧ Q (.ok true) s' := by
  have hanswer := finishes_await.mp (finishes_bind.mp h) {}
  have havailable : (s.hostLabels.docs.find? fun held ↦ held.label == label).all (fun held ↦
      held.state == .held && held.workspaceId == some workspaceId) := by
    rw [Option.all_eq_true]
    intro held hfound
    have hlabel : held.label = label := by simpa using find?_some hfound
    by_contra hforeign
    apply hown
    refine ⟨held, mem_of_find?_eq_some hfound, hlabel, ?_⟩
    simpa using hforeign
  refine ⟨s, rfl, ?_⟩
  rw [← havailable]
  exact hanswer

/-- A claim that nobody else stands against may go through. -/
theorem claimLabel_passes {label : String} {owner : LabelOwner} {conflict : JsError}
    (hown : ¬ ForeignLabel owner.workspaceId label s)
    (h : Finishes Q (claimLabel label owner conflict) s) :
    ∃ s', s'.appHosts = s.appHosts ∧ Q (.ok ()) s' := by
  have hhold := finishes_settle.mp (finishes_bind.mp h)
  have hinsert := finishes_settle.mp (finishes_bind.mp
    (finishes_now.mp (finishes_bind.mp hhold) 0))
  have hanswer := finishes_await.mp hinsert {}
  have hlabels : (s.tick 0).hostLabels = s.hostLabels := rfl
  simp only [System.respond, hlabels] at hanswer
  rcases insert_undisturbed s.hostLabels
    { label, state := .held, workspaceId := some owner.workspaceId,
      listingId := some owner.listingId, createdAt := s.world.clock + (0 : Nat),
      updatedAt := s.world.clock + (0 : Nat) } with ⟨-, fields, hclash⟩ | ⟨labels, hok⟩
  · -- the workspace holds the label already
    rw [hclash] at hanswer
    have havailable : Finishes (Continues Q fun ownedByCaller ↦
        Program.throwIf (ownedByCaller = false) conflict)
        (isAvailableFor label owner.workspaceId) (s.tick 0) :=
      finishes_bind.mp hanswer
    have hown' : ¬ ForeignLabel owner.workspaceId label (s.tick 0) := hown
    exact isAvailableFor_passes hown' havailable
  · rw [hok] at hanswer
    exact ⟨{ s.tick 0 with hostLabels := labels }, rfl, hanswer⟩

theorem claimLabelOf_passes {owner : LabelOwner}
    (hown : ∀ label, truthy (namespaceLabelOf hostname kind) = some label →
      ¬ ForeignLabel owner.workspaceId label s)
    (h : Finishes Q (claimLabelOf hostname kind owner conflict) s) :
    ∃ s', s'.appHosts = s.appHosts ∧ Q (.ok ()) s' := by
  unfold claimLabelOf at h
  cases hlabel : truthy (namespaceLabelOf hostname kind) with
  | none =>
    rw [hlabel] at h
    exact ⟨s, rfl, h⟩
  | some label =>
    rw [hlabel] at h
    exact claimLabel_passes (hown label hlabel) h

variable {host : DesiredAppHost} {time : Time}

/-- A new row of the app whose insertion takes effect is one more row of the app. -/
theorem insertRow_lost (hnew : ∀ row ∈ s.appHosts.docs, row.hostname ≠ host.hostname)
    (h : Finishes Q (insertRow (desiredRow input host time)) s) :
    ∃ e s', Q (.error e) s' ∧ desiredRow input host time ∈
      liveRows input.workspaceId input.appId s' := by
  have hanswer := finishes_await.mp (finishes_settle.mp (finishes_bind.mp h)) { fault := .lost }
  have hcf : (desiredRow input host time).cfHostnameId = none := rfl
  have hunique := unique_of_new hcf hnew
  simp only [System.respond, serveBulk_one, serveStore, Collection.apply, Collection.put,
    dif_pos hunique] at hanswer
  refine ⟨_, _, hanswer, ?_⟩
  apply mem_filter.mpr
  constructor
  · exact mem_append_right _ mem_cons_self
  · simp [isLiveOf, desiredRow]

/-- An update that takes effect leaves no row of the hostname with another time. -/
theorem updateOne_lost {Q : Except JsError UpdateResult → System → Prop}
    (h : Finishes Q (AppHosts.updateOne (fun row ↦ row.hostname == host.hostname)
      (desiredAs input host time)) s) :
    ∃ e s', Q (.error e) s' ∧
      ∀ row ∈ s'.appHosts.docs, row.hostname = host.hostname → row.updatedAt = time := by
  have hanswer := finishes_await.mp h { fault := .lost }
  have hkeys : ∀ row : AppHostRecord, (row.hostname == host.hostname) = true →
      appHostKeys (desiredAs input host time row) = appHostKeys row := fun _ _ ↦ rfl
  obtain ⟨rows, hdocs, happly⟩ := s.appHosts.apply_updateOne 0 hkeys
  simp only [System.respond, serveBulk_one, serveStore, happly] at hanswer
  refine ⟨_, _, hanswer, ?_⟩
  intro row hrow hhostname
  have hids := s.appHosts.ids_nodup appHostIdentity
  have hfilter : ∀ row : AppHostRecord, (row.hostname == host.hostname) = true →
      appHostIdentity.id row = host.hostname := fun _ h ↦ beq_iff_eq.mp h
  have hmem : row ∈ rows.docs := hrow
  rw [hdocs, updateFirst_eq_map hids hfilter] at hmem
  obtain ⟨before, -, hbefore⟩ := List.mem_map.mp hmem
  split at hbefore
  · exact hbefore ▸ rfl
  next hother =>
    subst hbefore
    simp [hhostname] at hother

/-- A removal whose last write takes effect unseen leaves no row that it asks for. -/
theorem retire_lost {filter : AppHostRecord → Bool} {Q : Except JsError Nat → System → Prop}
    (h : Finishes Q (retire filter time) s) :
    ∃ e s', Q (.error e) s' ∧ ∀ row, filter row = true → isRetirable row = true →
      row ∉ s'.appHosts.docs := by
  let kept := s.appHosts.remove fun row ↦ filter row && row.cfHostnameId.isNone
  have hmarked := finishes_await.mp (finishes_bind.mp (finishes_await.mp (finishes_bind.mp h) {}))
    { fault := .lost }
  have hunique := nodup_retired (fun row ↦ filter row && row.state != .deleting) time kept.unique
  refine ⟨_, _, hmarked, ?_⟩
  intro row hrow hretirable hmem
  have hmem' : row ∈ (kept.applyBulk 0 (.updateMany (fun row ↦ filter row && row.state != .deleting)
      (retiredAs time))).2.docs := hmem
  rw [Collection.docs_updateMany hunique] at hmem'
  exact not_mem_retired hrow hretirable hmem'

variable {rows : List AppHostRecord}

theorem isRetirable_of_live (h : row ∈ rows.filter (isLiveOf input.workspaceId input.appId)) :
    isRetirable row = true := by
  have hlive := (mem_filter.mp h).2
  simp only [isLiveOf, Bool.and_eq_true] at hlive
  simp [isRetirable, hlive.2]

/-- An empty set of hosts retires every row of the app. -/
theorem vacant_of_spared (hnone : input.hosts = []) (hrows : ∀ row ∈ rows, isRetirable row = true)
    (hspared : Finishes (Spared input rows) (writeHosts input rows time) s) : rows = [] := by
  have hall : (rows.filter fun row ↦ !(([] : List DesiredAppHost).map (·.hostname)).contains
      row.hostname) = rows := filter_eq_self.mpr fun _ _ ↦ rfl
  unfold writeHosts at hspared
  rw [hnone, hall] at hspared
  by_contra hne
  have hremoved : Finishes (Continues (Spared input rows) fun _ ↦
      .pure ([] ++ rows.map (retiredAs time))) (Program.onlyIf (rows ≠ []) do
        let _ ← retire
          (fun row ↦ (rows.map (·.hostname)).contains row.hostname) time
        .pure ()) s := finishes_bind.mp (finishes_bind.mp hspared)
  rw [Finishes, wp_onlyIf, if_pos hne] at hremoved
  obtain ⟨e, s', hthrew, hgone⟩ := retire_lost (finishes_bind.mp hremoved)
  have hsame : liveRows input.workspaceId input.appId s' = rows := hthrew e rfl
  obtain ⟨row, hrow⟩ := exists_mem_of_ne_nil rows hne
  have hstored : row ∈ s'.appHosts.docs := by
    rw [← hsame] at hrow
    exact (mem_filter.mp hrow).1
  apply hgone row ?_ (hrows row hrow) hstored
  simp only [contains_eq_mem, decide_eq_true_eq]
  exact List.mem_map_of_mem hrow

/-- A first host that the app has is updated. -/
theorem not_spared_of_known {existing : AppHostRecord} (hfirst : input.hosts = host :: rest)
    (hfound : rows.find? (·.hostname == host.hostname) = some existing)
    (htime : existing.updatedAt ≠ time) :
    ¬ Finishes (Spared input rows) (writeHosts input rows time) s := by
  intro hspared
  unfold writeHosts at hspared
  rw [hfirst] at hspared
  have hwrite := finishes_bind.mp (finishes_bind.mp hspared)
  unfold writeHost at hwrite
  rw [hfound] at hwrite
  obtain ⟨e, s', hthrew, htimes⟩ := updateOne_lost (finishes_bind.mp hwrite)
  have hsame : liveRows input.workspaceId input.appId s' = rows := hthrew e rfl
  have hexisting : existing ∈ rows := mem_of_find?_eq_some hfound
  have hhostname : existing.hostname = host.hostname := by simpa using find?_some hfound
  rw [← hsame] at hexisting
  exact htime (htimes existing (mem_filter.mp hexisting).1 hhostname)

/-- A first host that is new to the app and not refused is inserted. -/
theorem not_spared_of_new (hfirst : input.hosts = host :: rest)
    (hnew : ∀ row ∈ rows, row.hostname ≠ host.hostname)
    (hown : ∀ label, truthy (namespaceLabelOf host.hostname host.kind) = some label →
      ¬ ForeignLabel input.workspaceId label s)
    (hfree : ∀ row ∈ s.appHosts.docs, row.hostname ≠ host.hostname) :
    ¬ Finishes (Spared input rows) (writeHosts input rows time) s := by
  intro hspared
  unfold writeHosts at hspared
  rw [hfirst] at hspared
  have hwrite := finishes_bind.mp (finishes_bind.mp hspared)
  unfold writeHost at hwrite
  have hfind : rows.find? (·.hostname == host.hostname) = none := by
    rw [find?_eq_none]
    intro row hrow
    simpa using hnew row hrow
  rw [hfind] at hwrite
  obtain ⟨s₁, hrows, hclaimed⟩ := claimLabelOf_passes hown (finishes_bind.mp hwrite)
  obtain ⟨e, s', hthrew, hadded⟩ := insertRow_lost (hrows ▸ hfree) (finishes_bind.mp hclaimed)
  have hsame : liveRows input.workspaceId input.appId s' = rows := hthrew e rfl
  rw [hsame] at hadded
  exact hnew _ hadded rfl

/-- Where a replacement that throws spares the rows of the app, no host is written first. -/
theorem failsFirst_of_writeHosts {s₁ : System} (hlabels : s₁.hostLabels = s.hostLabels)
    (hkept : ∀ row ∈ s₁.appHosts.docs,
      row ∈ s.appHosts.docs ∧ isDeadOf input.workspaceId input.appId row = false)
    (h : ∀ elapsed : Nat, Spares input s
      (writeHosts input (liveRows input.workspaceId input.appId s) (s₁.world.clock + elapsed))
      (s₁.tick elapsed)) :
    FailsFirst input s := by
  cases hhosts : input.hosts with
  | nil =>
    have hretirable : ∀ row ∈ liveRows input.workspaceId input.appId s, isRetirable row = true :=
      fun _ hrow ↦ isRetirable_of_live hrow
    exact .nothing hhosts (vacant_of_spared hhosts hretirable (h 0))
  | cons host rest =>
    cases hfound : (liveRows input.workspaceId input.appId s).find?
        (·.hostname == host.hostname) with
    | some existing =>
      -- the clock may have moved on since the row was written
      have hmoved : ∃ elapsed : Nat, existing.updatedAt ≠ s₁.world.clock + elapsed := by
        by_cases hnow : existing.updatedAt = s₁.world.clock
        · refine ⟨1, fun hlater ↦ ?_⟩
          rw [hnow] at hlater
          exact absurd hlater (Int.lt_add_one_of_le (Int.le_refl _)).ne
        · exact ⟨0, fun hsame ↦ hnow (hsame.trans (Int.add_zero _))⟩
      obtain ⟨elapsed, htime⟩ := hmoved
      exact absurd (h elapsed) (not_spared_of_known hhosts hfound htime)
    | none =>
      have hnew : ∀ row ∈ liveRows input.workspaceId input.appId s, row.hostname ≠ host.hostname := by
        intro row hrow
        simpa using find?_eq_none.mp hfound row hrow
      by_contra hnot
      apply not_spared_of_new hhosts hnew ?_ ?_ (h 0)
      · intro label hlabel hforeign
        have hforeign' : ForeignLabel input.workspaceId label s := by
          unfold ForeignLabel
          rw [← hlabels]
          exact hforeign
        exact hnot (.refused hhosts ⟨hnew, .inl ⟨label, hlabel, hforeign'⟩⟩)
      · intro row hrow hhostname
        obtain ⟨hstored, hdead⟩ := hkept row hrow
        exact hnot (.refused hhosts ⟨hnew, .inr ⟨row, hstored, hhostname, hdead⟩⟩)

theorem failsFirst_of_replaceHosts
    (h : Spares input s (replaceHosts input) s) : FailsFirst input s := by
  rw [replaceHosts_eq] at h
  obtain ⟨hlive, hlabels, -⟩ := dead_removed input s {}
  have hfind := finishes_await.mp (finishes_bind.mp (finishes_await.mp (finishes_bind.mp h) {})) {}
  simp only [System.respond, serveBulk_one, serveStore_find, if_true] at hfind
  have hcurrent : (s.appHosts.remove (isDeadOf input.workspaceId input.appId)).docs.filter
      (isLiveOf input.workspaceId input.appId) = liveRows input.workspaceId input.appId s := hlive
  have hwrite := finishes_now.mp (finishes_bind.mp hfind)
  have hkept : ∀ row ∈ (System.respond (.appHosts (.deleteMany
      (isDeadOf input.workspaceId input.appId))) {} s).2.appHosts.docs,
      row ∈ s.appHosts.docs ∧ isDeadOf input.workspaceId input.appId row = false := by
    intro row hrow
    obtain ⟨hstored, hdead⟩ := mem_filter.mp hrow
    exact ⟨hstored, by simpa using hdead⟩
  apply failsFirst_of_writeHosts hlabels hkept
  intro elapsed
  have hdone := hwrite elapsed
  simp only [serveBulk, Collection.applyBulk, hcurrent, andThen_ok] at hdone
  exact hdone

/-- A request that spares the rows of the app whenever it throws fails first. -/
theorem failsFirst_of_spared
    (h : Spares input s (AppHostRegistry.setDesiredHosts deps input) s) : FailsFirst input s := by
  by_cases hseveral : 1 < (input.hosts.filter (·.primary)).length
  · exact .primaries hseveral
  · have hsingle := finishes_bind.mp h
    rw [Finishes, wp_throwIf, if_neg hseveral] at hsingle
    have hacquired := finishes_await.mp (finishes_bind.mp (finishes_bind.mp hsingle)) {}
    have hreplace := wp_finallyDo.mp hacquired
    let s₁ := (System.respond (.master (.acquire input.workspaceId)) {} s).2
    have hsame : FailsFirst input s₁ := by
      apply failsFirst_of_replaceHosts
      apply hreplace.imp
      intro r s' hr e he
      have hreleased := finishes_await.mp hr {}
      subst he
      exact hreleased e rfl
    cases hsame with
    | primaries several => exact .primaries several
    | nothing none vacant => exact .nothing none vacant
    | refused first refuses => exact .refused first ⟨refuses.isNew, refuses.taken⟩

end Written

/-- A replacement that throws leaves the rows of the app as they were exactly where it fails first. -/
theorem replacement_spares_iff (deps : RegistryDeps) (input : AppHostRegistry.SetDesiredHostsInput)
    (s : System) :
    (∀ e s', Executes (system fun _ _ _ ↦ True) (AppHostRegistry.setDesiredHosts deps input) s
        (.threw e) s' →
      liveRows input.workspaceId input.appId s' = liveRows input.workspaceId input.appId s) ↔
      FailsFirst input s := by
  constructor
  · intro h
    have hspared : Spares input s (AppHostRegistry.setDesiredHosts deps input) s := by
      apply wp_of_executes
      intro r s' hexecutes e he
      subst he
      exact h e s' hexecutes
    exact failsFirst_of_spared hspared
  · intro h e s' hexecutes
    exact hexecutes.post_threw (setDesiredHosts_spared h) e rfl

end PrivosCluster.Routing
