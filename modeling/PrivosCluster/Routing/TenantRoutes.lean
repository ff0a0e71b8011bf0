import PrivosCluster.Master.FailedDeployment
import PrivosCluster.Routing.TableAgreement
import PrivosCluster.Routing.TenantIsolation

/-!
# Whether rows route only to apps of their own workspace

A snapshot joins rows to apps by the app id alone. So a row routes to the app of another workspace
as soon as both name one app id. No operation looks for the other side when it registers a host or
makes a record; in runs where there is none, all rows route within their workspace.
-/

namespace PrivosCluster.Routing

open AsyncProgram DocumentStore List

/-- The snapshot of one state, with any nodes. -/
def System.snapshot (s : System) (baseDomain : String) (nodes : List FleetNode) : HostTableSnapshot :=
  buildSnapshot baseDomain (s.world.apps.docs.filter appsQuery) nodes
    (s.appHosts.docs.filter hostsQuery)

/-- The rule comes from the row, which the publisher joined to the app. -/
def Stems (s : System) (nodes : List FleetNode) (row : AppHostRecord) (rule : IngressRule) : Prop :=
  ∃ app ∈ s.world.apps.docs.filter appsQuery,
    row ∈ hostsByApp (s.appHosts.docs.filter hostsQuery) app.appId ∧
      rule = hostRule (meshIps (nodes.filter FleetNode.isRuntime) app) app row

/-- The state without some of its rows. -/
def System.dropRows (s : System) (drop : AppHostRecord → Bool) : System :=
  { s with appHosts := s.appHosts.remove drop }

/--
In every snapshot, a rule that stems from a row names an app of the row's workspace, and the hosts
routed to an app are the same without any rows of other workspaces.
-/
structure RoutesWithinTenants (s : System) : Prop where
  names : ∀ nodes row rule, Stems s nodes row rule → rule.workspaceId = row.workspaceId
  unaffected : ∀ baseDomain nodes, ∀ app ∈ s.world.apps.docs.filter appsQuery,
    ∀ drop : AppHostRecord → Bool,
      (∀ row, drop row = true → row.workspaceId ≠ app.workspaceId) →
        ((s.dropRows drop).snapshot baseDomain nodes).hostsOf app.appId =
          (s.snapshot baseDomain nodes).hostsOf app.appId

/-- If the row names the app, both belong to one workspace. -/
def Apart (app : MasterApp) (row : AppHostRecord) : Prop :=
  row.appId = app.appId → row.workspaceId = app.workspaceId

/-! ## What a snapshot shows -/

variable {appId workspaceId : String} {row : AppHostRecord} {drop : AppHostRecord → Bool}
  {s : System} {app : MasterApp}

theorem mem_hostsByApp {hosts : List AppHostRecord} :
    row ∈ hostsByApp hosts appId ↔ row ∈ hosts ∧ row.appId = appId := by
  simp [hostsByApp]

/-- Rows that are dropped are not rows of the app. -/
theorem hostsByApp_dropRows
    (h : ∀ row ∈ hostsByApp (s.appHosts.docs.filter hostsQuery) appId, drop row = false) :
    hostsByApp ((s.dropRows drop).appHosts.docs.filter hostsQuery) appId =
      hostsByApp (s.appHosts.docs.filter hostsQuery) appId := by
  simp only [hostsByApp, System.dropRows, Collection.remove, List.filter_filter]
  apply filter_congr
  intro row hrow
  by_cases hrouted : row.appId = appId ∧ hostsQuery row
  · have hkept : drop row = false :=
      h row (mem_hostsByApp.mpr ⟨mem_filter.mpr ⟨hrow, hrouted.2⟩, hrouted.1⟩)
    simp [hkept]
  · rw [not_and] at hrouted
    by_cases hid : row.appId = appId
    · simp [hrouted hid]
    · simp [hid]

theorem distinct_apps (s : System) :
    ((s.world.apps.docs.filter appsQuery).map MasterApp.appId).Nodup :=
  (s.world.apps.ids_nodup appIdentity).sublist (filter_sublist.map _)

/-- The hosts of an app depend on no row but those with its id. -/
theorem hostsOf_dropRows {baseDomain : String} {nodes : List FleetNode}
    (happ : app ∈ s.world.apps.docs.filter appsQuery)
    (h : ∀ row ∈ hostsByApp (s.appHosts.docs.filter hostsQuery) app.appId, drop row = false) :
    ((s.dropRows drop).snapshot baseDomain nodes).hostsOf app.appId =
      (s.snapshot baseDomain nodes).hostsOf app.appId := by
  calc ((s.dropRows drop).snapshot baseDomain nodes).hostsOf app.appId
      = (rulesOf baseDomain (nodes.filter FleetNode.isRuntime)
          ((s.dropRows drop).appHosts.docs.filter hostsQuery) app).map IngressRule.host :=
        hostsOf_buildSnapshot (distinct_apps s) happ
    _ = (rulesOf baseDomain (nodes.filter FleetNode.isRuntime)
          (s.appHosts.docs.filter hostsQuery) app).map IngressRule.host := by
        simp only [rulesOf, hostsByApp_dropRows h]
    _ = (s.snapshot baseDomain nodes).hostsOf app.appId :=
        (hostsOf_buildSnapshot (distinct_apps s) happ).symm

/-- A state routes within tenants exactly when its routed rows and apps are apart. -/
theorem routesWithinTenants_iff (s : System) :
    RoutesWithinTenants s ↔
      ∀ app ∈ s.world.apps.docs.filter appsQuery, ∀ row ∈ s.appHosts.docs.filter hostsQuery,
        Apart app row := by
  constructor
  · intro h app happ row hrow hid
    have hnames := h.names [] row _ ⟨app, happ, mem_hostsByApp.mpr ⟨hrow, hid⟩, rfl⟩
    exact hnames.symm
  · intro h
    refine ⟨?_, fun baseDomain nodes app happ drop hdrop ↦ hostsOf_dropRows happ fun row hrow ↦ ?_⟩
    · rintro nodes row rule ⟨app, happ, hrow, rfl⟩
      obtain ⟨hrow, hid⟩ := mem_hostsByApp.mp hrow
      exact (h app happ row hrow hid).symm
    · obtain ⟨hrow, hid⟩ := mem_hostsByApp.mp hrow
      by_contra hdropped
      exact hdrop row (Bool.not_eq_false _ ▸ hdropped) (h app happ row hrow hid)

/-! ## Which steps keep rows and records apart -/

/--
What a host or a record meets when it is registered: no record, or no row, of another workspace
has its app id.
-/
def RegistersApart : SystemCall → System → Prop
  | .appHosts (.one (.insertOne row)), s => ∀ app ∈ s.world.apps.docs, Apart app row
  | .master (.apps (.insertOne app)), s => ∀ row ∈ s.appHosts.docs, Apart app row
  | .master (.apps (.replaceOne _ app)), s => ∀ row ∈ s.appHosts.docs, Apart app row
  | _, _ => True

instance (app : MasterApp) (row : AppHostRecord) : Decidable (Apart app row) :=
  inferInstanceAs (Decidable (_ → _))

instance (c : SystemCall) (s : System) : Decidable (RegistersApart c s) := by
  unfold RegistersApart
  split <;> infer_instance

/-- The law of runs in which every registration finds nothing of another workspace. -/
def registersApart : SystemLaw := fun c _ s ↦ RegistersApart c s

/-- Any operation may do what it does, as far as rows and records are concerned. -/
def unrestricted (workspaceId : String) : SystemMandate where
  workspaceId := workspaceId
  reads _ := True
  writes _ := True
  creates := True
  label _ := True
  revives _ := True
  hosts _ _ := True
  own _ _ := trivial
  sameId _ _ _ _ _ := trivial
  readsRow _ := True
  writesRow _ := True
  taken _ := True
  named _ := True
  ownRow _ _ := trivial
  sameHost _ _ _ _ _ := trivial
  hostsRow _ _ _ _ _ _ := trivial

/-- Every record is apart from every row. -/
def AllApart (s : System) : Prop :=
  ∀ app ∈ s.world.apps.docs, ∀ row ∈ s.appHosts.docs, Apart app row

theorem Apart.updated {app' : MasterApp} (h : Apart app row) (hsame : KeepsIdentity app app') :
    Apart app' row := by
  unfold Apart
  rw [hsame.appId, hsame.workspaceId]
  exact h

theorem Apart.updatedRow {row' : AppHostRecord} (h : Apart app row) (hsame : KeepsRow row row') :
    Apart app row' := by
  unfold Apart
  rw [hsame.appId, hsame.workspaceId]
  exact h

/-- One call of any operation keeps rows and records apart, when its registrations meet the law. -/
theorem AllApart.respond (h : AllApart s) {c : SystemCall}
    (hc : (unrestricted workspaceId).Permits c) (hlaw : RegistersApart c s) (x : Choice) :
    AllApart (System.respond c x s).2 := by
  cases c with
  | master c =>
    cases c with
    | apps op =>
      have hop : op.Respects fun app ↦ ∀ row ∈ s.appHosts.docs, Apart app row := by
        cases op with
        | insertOne app => exact hlaw
        | updateOne filter update => exact fun app happ _ row hrow ↦ (happ row hrow).updated (hc.2 app)
        | replaceOne filter replacement => exact fun _ ↦ hlaw
        | upsertOne filter update fresh => exact hc.elim
        | insertMany docs => exact hc.elim
        | findOne | find => trivial
      exact serveStore_applies (P := fun apps ↦ ∀ app ∈ apps.docs, ∀ row ∈ s.appHosts.docs,
        Apart app row) op x h (Collection.forall_apply hop h)
    | _ => exact h
  | appHosts op =>
    have hop : op.Respects fun row ↦ ∀ app ∈ s.world.apps.docs, Apart app row := by
      cases op with
      | one op =>
        cases op with
        | insertOne row => exact hlaw
        | updateOne filter update =>
          exact fun row hrow _ app happ ↦ (hrow app happ).updatedRow (hc.2 row)
        | findOne | find => trivial
        | _ => exact hc.elim
      | updateMany filter update =>
        exact fun row hrow _ app happ ↦ (hrow app happ).updatedRow (hc.2 row)
      | deleteMany filter => trivial
    have hrows : ∀ row ∈ s.appHosts.docs, ∀ app ∈ s.world.apps.docs, Apart app row :=
      fun row hrow app happ ↦ h app happ row hrow
    have hafter := serveBulk_applies (P := fun rows ↦ ∀ row ∈ rows.docs, ∀ app ∈ s.world.apps.docs,
      Apart app row) op x hrows (Collection.forall_applyBulk hop hrows)
    exact fun app happ row hrow ↦ hafter row hrow app happ
  | _ => exact h

/-- Operations of any workspaces, side by side on one system. -/
def SystemOperation.pool {ι : Type} (deps : SystemDeps) (operations : ι → String × SystemOperation)
    (s : System) : Pool systemSignature JsError System ι :=
  ⟨fun i ↦ (operations i).2.program deps (operations i).1, s⟩

theorem unrestricted_within (deps : SystemDeps) (workspaceId : String)
    (operation : SystemOperation) : operation.Within deps (unrestricted workspaceId) := by
  cases operation with
  | deployMcp grant deploymentGrantHash hubIdentity => exact ⟨trivial, fun _ _ ↦ trivial⟩
  | deployMcpV3 grant deploymentGrantHash hubIdentity =>
    exact ⟨trivial, fun _ _ ↦ trivial, trivial⟩
  | remove appId workspaceRevoked => exact fun _ _ _ _ _ ↦ trivial
  | reapQuarantined appId => exact fun _ _ _ _ ↦ trivial
  | reserve appId listingId hostname kind => exact fun _ _ _ ↦ trivial
  | setDesiredHosts appId listingId generationId hosts => exact fun _ _ _ _ _ ↦ trivial
  | _ => trivial

theorem program_allApart {deps : SystemDeps} (operation : SystemOperation) :
    Keeps (system registersApart) AllApart (fun _ ↦ True) (operation.program deps workspaceId) := by
  apply (SystemOperation.program_obeys (unrestricted_within deps workspaceId operation)).meets
  intro c x s hc hs hlaw
  have hbears : (unrestricted workspaceId).Bears s := ⟨fun _ _ ↦ trivial, fun _ _ ↦ trivial⟩
  refine ⟨hs.respond hc hlaw x, hbears.answers hc ?_⟩
  rintro op rfl
  exact SystemMandate.answers_hostLabels (fun _ ↦ trivial) (fun _ ↦ trivial) op x

/--
In every interleaving of any operations of any workspaces in which no registration meets a record,
or a row, of another workspace under its app id, all rows route within their workspace.
-/
theorem routes_within_tenants {ι : Type} [DecidableEq ι] (deps : SystemDeps)
    (operations : ι → String × SystemOperation) (s : System) (hstart : AllApart s)
    (events : List (Event systemSignature Choice ι)) (pool : Pool systemSignature JsError System ι)
    (run : Pool.Run (system registersApart) (SystemOperation.pool deps operations s) events pool) :
    RoutesWithinTenants pool.state := by
  have hend : AllApart pool.state := (run.keeps (fun i ↦ program_allApart (operations i).2) hstart).1
  rw [routesWithinTenants_iff]
  intro app happ row hrow
  exact hend app (mem_of_mem_filter happ) row (mem_of_mem_filter hrow)

namespace Sample

/-- A workspace with a node and no app, and no public name. -/
def vacant : System where
  world := { PrivosCluster.Sample.world (PrivosCluster.Sample.app none .running none)
    PrivosCluster.Sample.nodup_running with
    apps := ⟨[], List.nodup_nil⟩ }
  appHosts := ⟨[], List.nodup_nil⟩
  hostLabels := ⟨[], List.nodup_nil⟩

/-- `acme` deploys an app, and the given workspace registers a host for its id. -/
def deployAndReserve (workspaceId : String) (i : Fin 2) : String × SystemOperation :=
  if i = 0 then ("acme", .deploy PrivosCluster.Sample.notesRequest)
  else (workspaceId, .reserve "notes" "listing" "notes.globex.test" .custom)

/-- Every request succeeds, and a new container has the id `fresh`. -/
def answered : SystemCall → System → Choice
  | .master (.request ⟨_, _, .deploy _⟩), _ =>
    { answer := some ⟨201, { id := some "fresh" }⟩, containerId := "fresh" }
  | _, _ => { text := "fresh" }

instance (c : SystemCall) (x : Choice) (s : System) :
    Decidable ((system fun _ _ _ ↦ True).permits c x s) := isTrue trivial

instance (c : SystemCall) (x : Choice) (s : System) :
    Decidable ((system registersApart).permits c x s) :=
  inferInstanceAs (Decidable (RegistersApart c s))

def played (workspaceId : String) :
    List (Event systemSignature Choice (Fin 2)) × Pool systemSignature JsError System (Fin 2) :=
  Pool.play (system fun _ _ _ ↦ True) answered (List.replicate 40 0 ++ List.replicate 10 1)
    (SystemOperation.pool systemDeps (deployAndReserve workspaceId) vacant)

theorem vacant_apart : AllApart vacant := fun _ h ↦ nomatch h

end Sample

/-- A workspace reserves a host for its own app. -/
theorem routes_within_tenants_own :
    let lawful := Pool.play (system registersApart) Sample.answered
      (replicate 40 0 ++ replicate 10 1)
      (SystemOperation.pool Sample.systemDeps (Sample.deployAndReserve "acme") Sample.vacant)
    lawful.2.state.appHosts.docs.length = 1 ∧ RoutesWithinTenants lawful.2.state := by
  constructor
  · decide +kernel
  · exact routes_within_tenants Sample.systemDeps (Sample.deployAndReserve "acme") Sample.vacant
      Sample.vacant_apart _ _ (Pool.run_play _ _ _)

/-- A host that another workspace reserves for the app id replaces the host of the app. -/
theorem reserve_takes_over :
    AllApart Sample.vacant ∧
      Pool.Run (system fun _ _ _ ↦ True)
        (SystemOperation.pool Sample.systemDeps (Sample.deployAndReserve "globex") Sample.vacant)
        (Sample.played "globex").1 (Sample.played "globex").2 ∧
      ¬ RoutesWithinTenants (Sample.played "globex").2.state := by
  refine ⟨Sample.vacant_apart, Pool.run_play _ _ _, fun h ↦ ?_⟩
  rw [routesWithinTenants_iff] at h
  have hjoined : ((Sample.played "globex").2.state.world.apps.docs.filter appsQuery).any (fun app ↦
      ((Sample.played "globex").2.state.appHosts.docs.filter hostsQuery).any fun row ↦
        row.appId == app.appId && row.workspaceId != app.workspaceId) := by
    decide +kernel
  obtain ⟨app, happ, hrows⟩ := List.any_eq_true.mp hjoined
  obtain ⟨row, hrow, hmatch⟩ := List.any_eq_true.mp hrows
  simp only [Bool.and_eq_true, beq_iff_eq, bne_iff_ne] at hmatch
  exact hmatch.2 (h app happ row hrow hmatch.1)

end PrivosCluster.Routing
