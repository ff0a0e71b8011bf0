import PrivosCluster.Master.InventoryFreeze
import PrivosCluster.Routing.RegistryConduct

/-!
# Whether an operation leaves other workspaces alone

Nearly every filter names the workspace. Two do not: the revival of a removed record is addressed
by the app id alone, and the removal of the hosts of an app by the app id and the generation. An
operation that meets no document of another workspace there leaves all documents of other
workspaces as they are.
-/

namespace PrivosCluster.Routing

open AsyncProgram DocumentStore AppHostRegistry

def othersApps (workspaceId : String) (s : System) : List MasterApp :=
  s.world.apps.docs.filter fun app ↦ app.workspaceId != workspaceId

def othersRows (workspaceId : String) (s : System) : List AppHostRecord :=
  s.appHosts.docs.filter fun row ↦ row.workspaceId != workspaceId

/-- Every app record and every row that another workspace owns is the same in both states. -/
structure SameForOthers (workspaceId : String) (s s' : System) : Prop where
  apps : othersApps workspaceId s' = othersApps workspaceId s
  rows : othersRows workspaceId s' = othersRows workspaceId s

/-- No host of another workspace goes with the hosts of the app. -/
def SparesHosts (workspaceId appId : String) (generationId : Option String) (s : System) : Prop :=
  ∀ row ∈ s.appHosts.docs, row.workspaceId ≠ workspaceId →
    AppHostRegistry.ofApp appId generationId row = true → isRetirable row = false

/-- No removed record of another workspace has the id. -/
def SparesTombstone (workspaceId appId : String) (s : System) : Prop :=
  ∀ app ∈ s.world.apps.docs, app.workspaceId ≠ workspaceId → app.appId = appId →
    app.state ≠ .removed

namespace SystemOperation

/-- The state holds no document of another workspace where the operation does not look for one. -/
def Harmless (deps : SystemDeps) (workspaceId : String) (s : System) : SystemOperation → Prop
  | .deployMcpV3 grant _ _ => SparesTombstone workspaceId grant.deployment.clusterAppId s
  | .remove appId workspaceRevoked => deps.lifecycle.appHosts = true → workspaceRevoked = false →
      ∀ app ∈ s.world.apps.docs, AppLifecycle.byId workspaceId appId app = true →
        SparesHosts workspaceId appId app.mcpGenerationId s
  | .reapQuarantined appId => deps.lifecycle.appHosts = true →
      ∀ app ∈ s.world.apps.docs, AppLifecycle.byId workspaceId appId app = true →
        SparesHosts workspaceId appId app.mcpGenerationId s
  | .removeAllAppHosts appId generationId => SparesHosts workspaceId appId generationId s
  | _ => True

/-- Operations that have the hosts of an app removed; they make no record. -/
def tearsDown : SystemOperation → Bool
  | .remove _ _ | .reapQuarantined _ | .removeAllAppHosts _ _ => true
  | _ => false

end SystemOperation

/-- The same app of the same workspace in the same generation. -/
structure SameInstallation (app app' : MasterApp) : Prop where
  appId : app.appId = app'.appId
  workspaceId : app.workspaceId = app'.workspaceId
  generation : app.mcpGenerationId = app'.mcpGenerationId

/-- What an operation may do in a state without touching other workspaces. -/
def isolated (workspaceId : String) (s : System) (tearsDown : Bool) : SystemMandate where
  workspaceId := workspaceId
  reads app :=
    (app.workspaceId = workspaceId →
      ∀ other ∈ s.world.apps.docs, other.workspaceId ≠ workspaceId → other.appId ≠ app.appId) ∧
    (tearsDown = true → ∃ before ∈ s.world.apps.docs, SameInstallation app before)
  writes app := app ∈ s.world.apps.docs → app.workspaceId = workspaceId
  creates := tearsDown = false
  label _ := True
  revives appId := SparesTombstone workspaceId appId s
  hosts appId generationId := SparesHosts workspaceId appId generationId s
  own _ h _ := h
  sameId app app' hreads happ hid := by
    intro hmem
    by_contra hother
    exact hreads.1 happ app' hmem hother hid
  readsRow row := row.workspaceId = workspaceId →
    ∀ other ∈ s.appHosts.docs, other.workspaceId ≠ workspaceId → other.hostname ≠ row.hostname
  writesRow row := row ∈ s.appHosts.docs → row.workspaceId = workspaceId
  taken _ := True
  named _ := True
  ownRow _ h _ := h
  sameHost row row' hreads hrow hhostname := by
    intro hmem
    by_contra hother
    exact hreads hrow row' hmem hother hhostname
  hostsRow appId generationId row hhosts hof hretirable := by
    intro hmem
    by_contra hother
    have hspared := hhosts row hmem hother hof
    rw [hretirable] at hspared
    cases hspared

variable {row : AppHostRecord} {op : Operation MasterApp} {deps : SystemDeps}
  {operation : SystemOperation} {law : SystemLaw} {docs : List AppHostRecord} {appId : String}
  {generationId : Option String}

section Isolation

variable {workspaceId : String} {s₀ : System} {tearsDown : Bool}

/-- What holds between the calls of the operation. -/
structure Isolated (workspaceId : String) (s₀ : System) (tearsDown : Bool) (s : System) : Prop where
  same : SameForOthers workspaceId s₀ s
  installations : tearsDown = true →
    ∀ app ∈ s.world.apps.docs, ∃ before ∈ s₀.world.apps.docs, SameInstallation app before

theorem Isolated.refl : Isolated workspaceId s₀ tearsDown s₀ :=
  ⟨⟨rfl, rfl⟩, fun _ app happ ↦ ⟨app, happ, rfl, rfl, rfl⟩⟩

variable {s : System}

/-- A record of another workspace is stored from the beginning to the end. -/
theorem mem_of_other (h : SameForOthers workspaceId s₀ s) {app : MasterApp}
    (hother : app.workspaceId ≠ workspaceId) :
    app ∈ s.world.apps.docs ↔ app ∈ s₀.world.apps.docs := by
  have hmem : app ∈ othersApps workspaceId s ↔ app ∈ othersApps workspaceId s₀ := by rw [h.apps]
  simpa [othersApps, hother] using hmem

theorem mem_row_of_other (h : SameForOthers workspaceId s₀ s)
    (hother : row.workspaceId ≠ workspaceId) : row ∈ s.appHosts.docs ↔ row ∈ s₀.appHosts.docs := by
  have hmem : row ∈ othersRows workspaceId s ↔ row ∈ othersRows workspaceId s₀ := by rw [h.rows]
  simpa [othersRows, hother] using hmem

/-- Two records, or two rows, of different workspaces have different identities. -/
theorem Isolated.bears (h : Isolated workspaceId s₀ tearsDown s) :
    (isolated workspaceId s₀ tearsDown).Bears s where
  apps app happ := by
    refine ⟨fun hown other hmem hother hid ↦ ?_, fun htears ↦ h.installations htears app happ⟩
    have hstored := (mem_of_other h.same hother).mpr hmem
    have heq := Collection.eq_of_mem_of_id appIdentity hstored happ hid
    exact hother (heq ▸ hown)
  rows row hrow hown other hmem hother hhostname := by
    have hstored := (mem_row_of_other h.same hother).mpr hmem
    have heq := Collection.eq_of_mem_of_id appHostIdentity hstored hrow hhostname
    exact hother (heq ▸ hown)

/-- The operation writes only its own records. -/
theorem spares_apps (h : Isolated workspaceId s₀ tearsDown s)
    (hop : (isolated workspaceId s₀ tearsDown).toMandate.Permits (.apps op)) :
    op.Spares (fun app ↦ app.workspaceId != workspaceId) s.world.apps.docs := by
  have hown : ∀ app ∈ s.world.apps.docs,
      (isolated workspaceId s₀ tearsDown).writes app → app.workspaceId = workspaceId := by
    intro app happ hwrites
    by_contra hother
    exact hother (hwrites ((mem_of_other h.same hother).mp happ))
  cases op with
  | insertOne app =>
    have happ : app.workspaceId = workspaceId := hop.workspaceId
    simpa [Operation.Spares] using happ
  | updateOne filter update =>
    intro app happ hfilter
    have happ := hown app happ (hop.1 app hfilter)
    have hupdated : (update app).workspaceId = workspaceId := (hop.2 app).workspaceId.trans happ
    exact ⟨by simp [happ], by simp [hupdated]⟩
  | replaceOne filter replacement =>
    obtain ⟨hcreates, hrevives, hmatched⟩ := hop
    intro app happ hfilter
    obtain ⟨hid, hremoved⟩ := hmatched app hfilter
    have hreplacement : replacement.workspaceId = workspaceId := hcreates.workspaceId
    have happ' : app.workspaceId = workspaceId := by
      by_contra hother
      exact hrevives app ((mem_of_other h.same hother).mp happ) hother hid hremoved
    exact ⟨by simp [happ'], by simp [hreplacement]⟩
  | upsertOne filter update fresh => exact hop.elim
  | insertMany docs => exact hop.elim
  | findOne | find => trivial

theorem spares_rows (h : Isolated workspaceId s₀ tearsDown s) {op : BulkOperation AppHostRecord}
    (hop : (isolated workspaceId s₀ tearsDown).Permits (.appHosts op)) :
    op.Spares (fun row ↦ row.workspaceId != workspaceId) s.appHosts.docs := by
  have hown : ∀ row ∈ s.appHosts.docs,
      (isolated workspaceId s₀ tearsDown).writesRow row → row.workspaceId = workspaceId := by
    intro row hrow hwrites
    by_contra hother
    exact hother (hwrites ((mem_row_of_other h.same hother).mp hrow))
  have hupdated : ∀ {filter : AppHostRecord → Bool} {update : AppHostRecord → AppHostRecord},
      (∀ row, filter row → (isolated workspaceId s₀ tearsDown).writesRow row) ∧
        (∀ row, KeepsRow row (update row)) → ∀ row ∈ s.appHosts.docs, filter row →
          (row.workspaceId != workspaceId) = false ∧
            ((update row).workspaceId != workspaceId) = false := by
    intro filter update hupdate row hrow hfilter
    have hbefore := hown row hrow (hupdate.1 row hfilter)
    have hafter := (hupdate.2 row).workspaceId.trans hbefore
    exact ⟨by simp [hbefore], by simp [hafter]⟩
  cases op with
  | one op =>
    cases op with
    | insertOne row =>
      have hrow : row.workspaceId = workspaceId := hop.workspaceId
      simpa [BulkOperation.Spares, Operation.Spares] using hrow
    | updateOne filter update => exact hupdated hop
    | findOne | find => trivial
    | _ => exact hop.elim
  | updateMany filter update => exact hupdated hop
  | deleteMany filter =>
    intro row hrow hfilter
    simpa using hown row hrow (hop row hfilter)

/-- A teardown makes no record, and its writes keep those there are. -/
theorem respects_apps (hop : (isolated workspaceId s₀ true).toMandate.Permits (.apps op)) :
    op.Respects fun app ↦ ∃ before ∈ s₀.world.apps.docs, SameInstallation app before := by
  cases op with
  | insertOne app => exact absurd hop.allowed (by simp [isolated])
  | updateOne filter update =>
    rintro app ⟨before, hbefore, hsame⟩ _
    have hkept := hop.2 app
    exact ⟨before, hbefore, hkept.appId.trans hsame.appId,
      hkept.workspaceId.trans hsame.workspaceId, hkept.generation.trans hsame.generation⟩
  | replaceOne filter replacement => exact absurd hop.1.allowed (by simp [isolated])
  | upsertOne filter update fresh => exact hop.elim
  | insertMany docs => exact hop.elim
  | findOne | find => trivial

/-- One call of an operation leaves other workspaces alone. -/
theorem Isolated.respond (h : Isolated workspaceId s₀ tearsDown s) {c : SystemCall}
    (hc : (isolated workspaceId s₀ tearsDown).Permits c) (x : Choice) :
    Isolated workspaceId s₀ tearsDown (System.respond c x s).2 := by
  cases c with
  | master c =>
    cases c with
    | apps op =>
      have hothers : othersApps workspaceId (System.respond (.master (.apps op)) x s).2 =
          othersApps workspaceId s₀ :=
        serveStore_applies (P := fun apps ↦ apps.docs.filter _ = othersApps workspaceId s₀) op x
          h.same.apps ((Collection.filter_apply (spares_apps h hc)).trans h.same.apps)
      refine ⟨⟨hothers, h.same.rows⟩, fun htears ↦ ?_⟩
      subst htears
      exact serveStore_applies (P := fun apps ↦ ∀ app ∈ apps.docs, ∃ before ∈ s₀.world.apps.docs,
        SameInstallation app before) op x (h.installations rfl)
        (Collection.forall_apply (respects_apps hc) (h.installations rfl))
    | _ => exact ⟨⟨h.same.apps, h.same.rows⟩, h.installations⟩
  | appHosts op =>
    have hothers : othersRows workspaceId (System.respond (.appHosts op) x s).2 =
        othersRows workspaceId s₀ :=
      serveBulk_applies (P := fun rows ↦ rows.docs.filter _ = othersRows workspaceId s₀) op x
        h.same.rows ((Collection.filter_applyBulk (spares_rows h hc)).trans h.same.rows)
    exact ⟨⟨h.same.apps, hothers⟩, h.installations⟩
  | _ => exact ⟨⟨h.same.apps, h.same.rows⟩, h.installations⟩

end Isolation

variable {workspaceId : String}

/-- An operation that finds no foreign document where it does not look for one stays in bounds. -/
theorem SystemOperation.Harmless.within {s : System} (h : operation.Harmless deps workspaceId s) :
    operation.Within deps (isolated workspaceId s operation.tearsDown) := by
  have hteardown : ∀ appId,
      (∀ app ∈ s.world.apps.docs, AppLifecycle.byId workspaceId appId app →
        SparesHosts workspaceId appId app.mcpGenerationId s) →
      ∀ app, AppLifecycle.byId workspaceId appId app →
        (isolated workspaceId s true).reads app →
          SparesHosts workspaceId appId app.mcpGenerationId s := by
    intro appId hspares app happ hreads
    obtain ⟨before, hbefore, hsame⟩ := hreads.2 rfl
    rw [AppLifecycle.byId_iff] at happ
    have hid : AppLifecycle.byId workspaceId appId before :=
      AppLifecycle.byId_iff.mpr ⟨hsame.appId ▸ happ.1, hsame.workspaceId ▸ happ.2⟩
    rw [hsame.generation]
    exact hspares before hbefore hid
  cases operation with
  | deploy raw => rfl
  | deployMcp grant deploymentGrantHash hubIdentity => exact ⟨rfl, fun _ _ ↦ trivial⟩
  | deployMcpV3 grant deploymentGrantHash hubIdentity => exact ⟨rfl, fun _ _ ↦ trivial, h⟩
  | remove appId workspaceRevoked =>
    exact fun hhosts hrevoked ↦ hteardown appId (h hhosts hrevoked)
  | reapQuarantined appId => exact fun hhosts ↦ hteardown appId (h hhosts)
  | reserve appId listingId hostname kind => exact fun _ _ _ ↦ trivial
  | setDesiredHosts appId listingId generationId hosts => exact fun _ _ _ _ _ ↦ trivial
  | removeAllAppHosts appId generationId => exact h
  | _ => trivial

/-- An operation that is harmless in the state it starts in leaves other workspaces alone. -/
theorem SystemOperation.Harmless.same {s s' : System} {outcome : Outcome JsError Unit}
    (hharmless : operation.Harmless deps workspaceId s)
    (h : Executes (system law) (operation.program deps workspaceId) s outcome s') :
    SameForOthers workspaceId s s' := by
  have hkeeps : Keeps (system law) (Isolated workspaceId s operation.tearsDown) (fun _ ↦ True)
      (operation.program deps workspaceId) := by
    apply (SystemOperation.program_obeys hharmless.within).meets
    intro c x s' hc hs' _
    refine ⟨hs'.respond hc x, hs'.bears.answers hc ?_⟩
    rintro op rfl
    exact SystemMandate.answers_hostLabels (fun _ ↦ trivial) (fun _ ↦ trivial) op x
  exact (hkeeps.executes h Isolated.refl).same

/-! ## What a removal of hosts takes along -/

theorem nodup_retired (filter : AppHostRecord → Bool) (time : Time)
    (h : (docs.flatMap appHostKeys).Nodup) :
    ((updateAll filter (retiredAs time) docs).flatMap appHostKeys).Nodup := by
  have hkeys : ∀ row, appHostKeys (if filter row then retiredAs time row else row) =
      appHostKeys row := by
    intro row
    split <;> rfl
  rw [updateAll, List.flatMap_map]
  simpa only [hkeys] using h

/-- What is left of the rows by deleting some and marking others. -/
theorem not_mem_retired {filter : AppHostRecord → Bool} {time : Time} (hfilter : filter row)
    (hretirable : isRetirable row) :
    row ∉ updateAll (fun row ↦ filter row && row.state != .deleting) (retiredAs time)
      (docs.filter fun row ↦ !(filter row && row.cfHostnameId.isNone)) := by
  intro hrow
  obtain ⟨before, hbefore, heq⟩ := List.mem_map.mp hrow
  split at heq
  next hmarked =>
    subst heq
    simp_all [isRetirable, retiredAs]
  next hunmarked =>
    simp_all [isRetirable]

theorem respond_retired (filter : AppHostRecord → Bool) (time : Time) (s : System) :
    ∃ result rows, System.respond
        (.appHosts (.updateMany filter (retiredAs time))) {} s =
          (.ok result, { s with appHosts := rows }) ∧
      rows.docs = updateAll filter (retiredAs time) s.appHosts.docs := by
  have hunique := nodup_retired filter time s.appHosts.unique
  simp only [System.respond, serveBulk, Collection.applyBulk, dif_pos hunique]
  exact ⟨_, ⟨_, hunique⟩, rfl, rfl⟩

theorem announce_keeps {rows : Collection AppHostRecord appHostKeys} {deps : RegistryDeps}
    {cfWorker : Bool} :
    Keeps (system law) (fun s ↦ s.appHosts = rows) (fun _ ↦ True)
      (announce deps cfWorker) := by
  apply Meets.seq (Meets.onlyIf fun _ ↦ Meets.ask fun _ _ hs _ ↦ ⟨hs, fun _ _ ↦ trivial⟩)
  intro _
  exact Meets.onlyIf fun _ ↦ Meets.ask fun _ _ hs _ ↦ ⟨hs, fun _ _ ↦ trivial⟩

/-- A removal of hosts that is not disturbed leaves no row it asks for as it was. -/
theorem removal_retires {deps : RegistryDeps} {s : System} {Q : Except JsError Nat → System → Prop}
    (h : wp (system fun _ _ _ ↦ True) (fun _ _ _ ↦ True) Q
      (AppHostRegistry.removeAllAppHosts deps appId generationId) s) :
    ∃ r s', Q r s' ∧ ∀ row, ofApp appId generationId row →
      isRetirable row → row ∉ s'.appHosts.docs := by
  have hdeleted := ((h {} trivial).2 {} trivial).2
  have hmarked := (hdeleted {} trivial).2
  simp only [system] at hmarked
  obtain ⟨result, rows, hrespond, hdocs⟩ := respond_retired
    (fun row ↦ ofApp appId generationId row && row.state != .deleting)
    (Service.serve {} s.world .now)
    (System.respond (.appHosts (.deleteMany fun row ↦
      ofApp appId generationId row && row.cfHostnameId.isNone)) {}
      (System.respond (.master (.service .now)) {} s).2).2
  rw [hrespond] at hmarked
  have hrest : ∀ n s', s'.appHosts = rows → wp (system fun _ _ _ ↦ True) (fun _ _ _ ↦ True) Q (do
      Program.onlyIf (0 < n) (announce deps true)
      .pure n) s' → ∃ r s'', Q r s'' ∧ s''.appHosts = rows := by
    intro n s' hs' hwp
    have hkeeps : Keeps (system fun _ _ _ ↦ True) (fun s ↦ s.appHosts = rows) (fun _ ↦ True) (do
        Program.onlyIf (0 < n) (announce deps true)
        .pure n : Action Nat) :=
      (Meets.onlyIf fun _ ↦ announce_keeps).seq fun _ ↦ trivial
    have hrun := (system fun _ _ _ ↦ True).executes_run (fun _ _ ↦ {}) (fun _ _ ↦ trivial) (do
        Program.onlyIf (0 < n) (announce deps true)
        .pure n : Action Nat) s'
    exact ⟨_, _, hrun.post hwp, hkeeps.executes hrun hs'⟩
  obtain ⟨r, s', hQ, hrows⟩ := hrest _ _ rfl hmarked
  refine ⟨r, s', hQ, fun row hof hretirable ↦ ?_⟩
  rw [hrows, hdocs]
  exact not_mem_retired hof hretirable

/-- Where anything may happen, a removal of hosts is harmless when no execution touches others. -/
theorem sparesHosts_of_same {s : System} (h : ∀ r s', Executes (system fun _ _ _ ↦ True)
      ((SystemOperation.removeAllAppHosts appId generationId).program deps workspaceId) s
        (.ofExcept r) s' → SameForOthers workspaceId s s') :
    SparesHosts workspaceId appId generationId s := by
  intro row hrow hother hof
  by_contra hretirable
  rw [Bool.not_eq_false] at hretirable
  have hwp := wp_bind.mp (wp_of_executes h)
  obtain ⟨r, s', hsame, hgone⟩ := removal_retires hwp
  have hsame' : SameForOthers workspaceId s s' := by
    cases r <;> exact hsame
  exact hgone row hof hretirable ((mem_row_of_other hsame' hother).mpr hrow)

namespace Sample

def systemDeps : SystemDeps where
  deployment := PrivosCluster.Sample.deploymentDeps
  lifecycle := PrivosCluster.Sample.deps
  registry := ⟨id, true, true⟩

/-- A hostname that another workspace registered for an app of the same id. -/
def foreignRow : AppHostRecord where
  hostname := "notes.globex.test"
  workspaceId := "globex"
  appId := "notes"
  listingId := "listing"
  kind := .custom
  primary := true
  state := .active
  createdAt := 0
  updatedAt := 0

/-- A running app of `acme`, and the row of `globex`. -/
def preregistered : System where
  world := PrivosCluster.Sample.world (PrivosCluster.Sample.app none .running none)
    PrivosCluster.Sample.nodup_running
  appHosts := ⟨[foreignRow], by decide⟩
  hostLabels := ⟨[], List.nodup_nil⟩

def attempted (operation : SystemOperation) : Except JsError Unit × System :=
  (system fun _ _ _ ↦ True).run (fun _ _ ↦ {}) (operation.program systemDeps "acme") preregistered

theorem executes_attempted (operation : SystemOperation) :
    Executes (system fun _ _ _ ↦ True) (operation.program systemDeps "acme") preregistered
      (.ofExcept (attempted operation).1) (attempted operation).2 :=
  (system fun _ _ _ ↦ True).executes_run (fun _ _ ↦ {}) (fun _ _ ↦ trivial) _ _

end Sample

end PrivosCluster.Routing
