import PrivosCluster.Master.ReconcileSpec
import PrivosCluster.Master.ReaperSpec

/-!
# Which containers a reconcile pass stops

The branch for QUARANTINED records is meant to stop what a revocation has quarantined. It also
meets records that await their activation, and it does not meet the workspaces that are revoked,
since a pass asks for the containers of active workspaces alone.
-/

namespace PrivosCluster

open AsyncProgram DocumentStore AppLifecycle Reconcile List

variable {rows : List Row} {containerId : String}

section Stops

variable {answers : Answers} {w w' : World} {workspaceId nodeId : String}

/-- The pass looks at this container of a listing before it gives up on the listing. -/
def Examines (answers : Answers) (w : World) (workspaceId nodeId : String) (container : Container) :
    Prop :=
  ∃ visit ∈ (visits answers (w.apps.docs.map rowOf) (asked w)).1,
    visit.workspaceId = workspaceId ∧ visit.nodeId = nodeId ∧ container ∈ visit.examined

/-- The request was sent between the two states. -/
def SentSince (w w' : World) (sent : SentRequest) : Prop :=
  sent ∈ w'.requests.drop w.requests.length

theorem mem_examine {containers : List Container} {container : Container}
    (h : container ∈ (examine workspaceId rows containers).1) : container ∈ containers := by
  induction containers generalizing rows with
  | nil => cases h
  | cons first rest ih =>
    unfold examine at h
    split at h
    · cases h
    · obtain rfl | h := mem_cons.mp h
      · exact mem_cons_self
      · exact mem_cons_of_mem _ (ih h)

theorem mem_visits {pairs : List (String × String)} {visit : Visit}
    (h : visit ∈ (visits answers rows pairs).1) :
    (visit.workspaceId, visit.nodeId) ∈ pairs ∧
      ∀ container ∈ visit.examined, container ∈ listingOf answers visit.nodeId visit.workspaceId := by
  induction pairs generalizing rows with
  | nil => cases h
  | cons pair pairs ih =>
    obtain rfl | h := mem_cons.mp h
    · exact ⟨mem_cons_self, fun _ hc ↦ mem_examine hc⟩
    · obtain ⟨hpair, hlisted⟩ := ih h
      exact ⟨mem_cons_of_mem _ hpair, hlisted⟩

/-- What is looked at is listed by a node that is asked for an active workspace. -/
theorem Examines.asked {container : Container}
    (h : Examines answers w workspaceId nodeId container) :
    (∃ workspace ∈ w.workspaces.docs,
        workspace.workspaceId = workspaceId ∧ workspace.status = .active) ∧
      (∃ node ∈ w.nodes.docs, node.nodeId = nodeId ∧ node.status ≠ .retired) ∧
      container ∈ listingOf answers nodeId workspaceId := by
  obtain ⟨visit, hvisit, rfl, rfl, hcontainer⟩ := h
  obtain ⟨hpair, hlisted⟩ := mem_visits hvisit
  obtain ⟨workspace, hworkspace, hnodes⟩ := mem_flatMap.mp hpair
  obtain ⟨node, hnode, heq⟩ := List.mem_map.mp hnodes
  rw [mem_filter] at hworkspace hnode
  rw [Prod.mk.injEq] at heq
  refine ⟨⟨workspace, hworkspace.1, heq.1, ?_⟩, ⟨node, hnode.1, heq.2, ?_⟩, hlisted _ hcontainer⟩
  · simpa [enumeratedWorkspace] using hworkspace.2
  · simpa [enumeratedNode] using hnode.2

theorem stop_mem_sweep :
    stopRequest nodeId workspaceId containerId ∈ sweep answers w ↔
      ∃ container, Examines answers w workspaceId nodeId container ∧ container.id = containerId ∧
        isStopped w workspaceId container := by
  constructor
  · intro h
    obtain ⟨visit, hvisit, hsent⟩ := mem_flatMap.mp h
    obtain hsent | hsent := mem_cons.mp hsent
    · simp [stopRequest] at hsent
    · obtain ⟨container, hcontainer, heq⟩ := List.mem_map.mp hsent
      rw [mem_filter] at hcontainer
      simp only [stopRequest, SentRequest.mk.injEq, AgentRequest.power.injEq, and_true] at heq
      obtain ⟨hnode, hworkspace, hid⟩ := heq
      exact ⟨container, ⟨visit, hvisit, hworkspace, hnode, hcontainer.1⟩, hid,
        hworkspace ▸ hcontainer.2⟩
  · rintro ⟨container, ⟨visit, hvisit, rfl, rfl, hcontainer⟩, rfl, hstopped⟩
    refine mem_flatMap.mpr ⟨visit, hvisit, mem_cons_of_mem _ (List.mem_map.mpr ?_)⟩
    exact ⟨container, mem_filter.mpr ⟨hcontainer, hstopped⟩, rfl⟩

/-- A pass stops exactly the running containers it looks at whose record is QUARANTINED. -/
theorem run_stops_iff {baseDomain : String} {r : Except JsError Counts}
    (run : Executes (cluster (Listing answers)) (Reconcile.run baseDomain) w (.ofExcept r) w') :
    SentSince w w' (stopRequest nodeId workspaceId containerId) ↔
      ∃ container, Examines answers w workspaceId nodeId container ∧ container.id = containerId ∧
        isStopped w workspaceId container := by
  rw [SentSince, run.post run_ends, drop_left, stop_mem_sweep]

end Stops

/-! ## Apps that await their activation -/

/-- The record of the app is QUARANTINED, by a revocation. -/
def IsRevoked (w : World) (workspaceId appId : String) : Prop :=
  ∃ app, RevokeQuarantined w workspaceId appId app

/-- Stop commands go to listed containers of apps that a revocation quarantined, and to no others. -/
def StopsOnlyRevoked (answers : Answers) (w w' : World) : Prop :=
  ∀ nodeId workspaceId containerId,
    SentSince w w' (stopRequest nodeId workspaceId containerId) →
    (∃ container ∈ listingOf answers nodeId workspaceId, container.id = containerId) ∧
      ∀ container ∈ listingOf answers nodeId workspaceId, container.id = containerId →
        IsRevoked w workspaceId (appIdOf container)

/--
What the pass looks at, runs and is QUARANTINED has been quarantined by a revocation, and so has
every other entry of the listing with the same container id.
-/
def NoneAwaits (answers : Answers) (w : World) : Prop :=
  ∀ workspaceId nodeId container, Examines answers w workspaceId nodeId container →
    isStopped w workspaceId container = true →
    ∀ entry ∈ listingOf answers nodeId workspaceId, entry.id = container.id →
      IsRevoked w workspaceId (appIdOf entry)

/-- A pass stops only what a revocation quarantined exactly when it meets no app that awaits. -/
theorem run_stops_only_revoked_iff {answers : Answers} {baseDomain : String} {w w' : World}
    {r : Except JsError Counts}
    (run : Executes (cluster (Listing answers)) (Reconcile.run baseDomain) w (.ofExcept r) w') :
    StopsOnlyRevoked answers w w' ↔ NoneAwaits answers w := by
  constructor
  · intro h workspaceId nodeId container hexamined hstopped
    exact (h nodeId workspaceId container.id
      ((run_stops_iff run).mpr ⟨container, hexamined, rfl, hstopped⟩)).2
  · intro h nodeId workspaceId containerId hsent
    obtain ⟨container, hexamined, rfl, hstopped⟩ := (run_stops_iff run).mp hsent
    exact ⟨⟨container, hexamined.asked.2.2, rfl⟩, h workspaceId nodeId container hexamined hstopped⟩

namespace Sample

/-- The container of the app, as its agent lists it. -/
def container : Container where
  id := "c1"
  appId := some "notes"
  listingId := some "listing"
  versionDigest := some "sha256:version"
  image := "registry/notes"
  imageDigest := some "sha256:image"
  state := .running
  port := 3001
  resources := ⟨256, 1, 64⟩
  envVars := []
  createdAt := 0
  volumes := []
  subdomain := some "notes"
  mcpV3 := true

/-- The node answers with its one container. -/
def answers : Answers := fun nodeId _ ↦
  if nodeId = "n1" then some ⟨200, { containers := [container] }⟩ else none

theorem mem_listing {nodeId workspaceId : String} {entry : Container}
    (h : entry ∈ listingOf answers nodeId workspaceId) : nodeId = "n1" ∧ entry = container := by
  unfold listingOf answers at h
  by_cases hnode : nodeId = "n1"
  · simpa [hnode] using h
  · simp [hnode] at h

def policy (call : Call) (_ : World) : Choice :=
  match call with
  | .request sent => { answer := answers sent.nodeId sent.workspaceId }
  | _ => {}

theorem policy_lawful (call : Call) (w : World) : Listing answers call (policy call w) w := by
  refine ⟨?_, fun nodeId workspaceId hcall ↦ ?_⟩
  · cases call <;> rfl
  · rw [hcall]
    rfl

/-- The state after a pass that starts in `w`. -/
def afterPass (w : World) : World :=
  ((cluster (Listing answers)).run policy (Reconcile.run "example.com") w).2

theorem executes_pass (w : World) : Executes (cluster (Listing answers))
    (Reconcile.run "example.com") w
    (.ofExcept ((cluster (Listing answers)).run policy (Reconcile.run "example.com") w).1)
    (afterPass w) :=
  (cluster (Listing answers)).executes_run policy policy_lawful _ w

theorem examines {app : MasterApp} (h : (appKeys app).Nodup)
    (hknown : byId "acme" "notes" app) :
    Examines answers (world app h) "acme" "n1" container := by
  have hlook : lookAt [rowOf app] "acme" container = some [rowOf app] := by
    have hrow : isKnown [rowOf app] "acme" (appIdOf container) := by
      simpa [isKnown, byId, rowOf, appIdOf, container] using hknown
    rw [lookAt, hrow]
    rfl
  refine ⟨⟨"acme", "n1", [container]⟩, ?_, rfl, rfl, by simp⟩
  have hasked : asked (world app h) = [("acme", "n1")] := rfl
  have hlisted : listingOf answers "n1" "acme" = [container] := rfl
  rw [hasked]
  simp [visits, hlisted, examine, hlook, world]

end Sample

/-- The pass over one app that a revocation quarantined and whose container runs. -/
theorem run_stops_only_revoked_iff_revoked :
    StopsOnlyRevoked Sample.answers Sample.quarantinedWorld
      (Sample.afterPass Sample.quarantinedWorld) := by
  refine (run_stops_only_revoked_iff (Sample.executes_pass _)).mpr ?_
  intro workspaceId nodeId container hexamined _ entry hentry _
  obtain ⟨workspace, hworkspace, rfl, -⟩ := hexamined.asked.1
  obtain ⟨-, rfl⟩ := Sample.mem_listing hentry
  obtain rfl : workspace = Sample.workspace .active := mem_singleton.mp hworkspace
  exact ⟨Sample.quarantinedApp, Sample.revokeQuarantined⟩

/-- The container of an app that awaits its activation is stopped. -/
theorem run_stops_awaiting :
    ¬ ∀ (baseDomain : String) (answers : Answers) (w w' : World) (r : Except JsError Counts),
      Executes (cluster (Listing answers)) (Reconcile.run baseDomain) w (.ofExcept r) w' →
      StopsOnlyRevoked answers w w' := by
  intro h
  let app := Sample.app (some .mcpV3) .quarantined none
  have hkeys : (appKeys app).Nodup := by decide
  have honly := h _ _ _ _ _ (Sample.executes_pass (Sample.world app hkeys))
  have hsent : SentSince (Sample.world app hkeys) (Sample.afterPass (Sample.world app hkeys))
      (stopRequest "n1" "acme" "c1") :=
    (run_stops_iff (Sample.executes_pass _)).mpr
      ⟨Sample.container, Sample.examines hkeys rfl, rfl, rfl⟩
  obtain ⟨app', hrevoked⟩ := (honly _ _ _ hsent).2 Sample.container
    (by simp [listingOf, Sample.answers]) rfl
  have happ : (Sample.world app hkeys).app "notes" = some app :=
    World.app_eq_some.mpr ⟨mem_singleton_self _, rfl⟩
  have hclock := hrevoked.clockStarted
  rw [Option.some.inj (hrevoked.record.symm.trans happ)] at hclock
  cases hclock

/-! ## Containers of revoked workspaces -/

/-- An agent lists this running container of an app that a revocation quarantined. -/
structure ListedRunning (answers : Answers) (w : World) (workspaceId nodeId : String)
    (container : Container) : Prop where
  listed : container ∈ listingOf answers nodeId workspaceId
  running : container.state = .running
  revoked : IsRevoked w workspaceId (appIdOf container)

/-- Every such container was sent a stop command. -/
def RestopsRevoked (answers : Answers) (w w' : World) : Prop :=
  ∀ workspaceId nodeId container, ListedRunning answers w workspaceId nodeId container →
    SentSince w w' (stopRequest nodeId workspaceId container.id)

/--
The workspace of every such container is active, its node is not retired, and the pass looks at
an entry with its id before it gives up on the listing.
-/
def ReachesRevoked (answers : Answers) (w : World) : Prop :=
  ∀ workspaceId nodeId container, ListedRunning answers w workspaceId nodeId container →
    (∃ workspace ∈ w.workspaces.docs,
      workspace.workspaceId = workspaceId ∧ workspace.status = .active) ∧
    (∃ node ∈ w.nodes.docs, node.nodeId = nodeId ∧ node.status ≠ .retired) ∧
    ∃ entry, Examines answers w workspaceId nodeId entry ∧ entry.id = container.id ∧
      isStopped w workspaceId entry = true

theorem run_restops_revoked_iff {answers : Answers} {baseDomain : String} {w w' : World}
    {r : Except JsError Counts}
    (run : Executes (cluster (Listing answers)) (Reconcile.run baseDomain) w (.ofExcept r) w') :
    RestopsRevoked answers w w' ↔ ReachesRevoked answers w := by
  refine forall₃_congr fun workspaceId nodeId container ↦ forall_congr' fun _ ↦ ?_
  rw [run_stops_iff run]
  constructor
  · rintro ⟨entry, hexamined, hid, hstopped⟩
    exact ⟨hexamined.asked.1, hexamined.asked.2.1, entry, hexamined, hid, hstopped⟩
  · exact fun h ↦ h.2.2

/-- The workspace is active again, and the container of its quarantined app still runs. -/
theorem run_restops_revoked_iff_active :
    RestopsRevoked Sample.answers Sample.quarantinedWorld
      (Sample.afterPass Sample.quarantinedWorld) := by
  refine (run_restops_revoked_iff (Sample.executes_pass _)).mpr ?_
  intro workspaceId nodeId container h
  obtain ⟨rfl, rfl⟩ := Sample.mem_listing h.listed
  obtain ⟨app, hrevoked⟩ := h.revoked
  have happ : app = Sample.quarantinedApp :=
    Option.some.inj (hrevoked.record.symm.trans Sample.revokeQuarantined.record)
  obtain rfl : "acme" = workspaceId := by
    rw [← hrevoked.workspace, happ]
    rfl
  exact ⟨⟨Sample.workspace .active, mem_singleton_self _, rfl, rfl⟩,
    ⟨Sample.node "n1", mem_singleton_self _, rfl, by decide⟩,
    Sample.container, Sample.examines (by decide) rfl, rfl, rfl⟩

namespace Sample

/-- The workspace is revoked while its agents are not reached. -/
def lostRevocation : Except JsError Unit × World :=
  (cluster anyLaw).run
    (fun call _ ↦ match call with
      | .request _ => { answer := none, performed := false }
      | _ => {})
    (PortalAdmin.deleteWorkspace deps "acme") (world (app none .running none) nodup_running)

end Sample

/-- After a revocation whose stop commands were lost no pass asks for the workspace. -/
theorem run_skips_revoked_workspace :
    ¬ ∀ (deps : LifecycleDeps) (workspaceId baseDomain : String) (answers : Answers)
      (w₀ w w' : World) (r : Except JsError Counts),
      Executes (cluster anyLaw) (PortalAdmin.deleteWorkspace deps workspaceId) w₀ (.returned ()) w →
      Executes (cluster (Listing answers)) (Reconcile.run baseDomain) w (.ofExcept r) w' →
      RestopsRevoked answers w w' := by
  intro h
  have hrevoke : Executes (cluster anyLaw) (PortalAdmin.deleteWorkspace Sample.deps "acme")
      (Sample.world (Sample.app none .running none) (by decide)) (.ofExcept Sample.lostRevocation.1)
      Sample.lostRevocation.2 :=
    (cluster anyLaw).executes_run _ (fun _ _ ↦ trivial) _ _
  have hrecord : (Sample.lostRevocation.2.app "notes").any (fun app ↦ app.workspaceId == "acme" &&
      app.state == .quarantined && app.quarantinedAt.isSome) := by decide +kernel
  obtain ⟨app, happ, hstate⟩ := (Option.any_eq_true _ _).mp hrecord
  simp only [Bool.and_eq_true, beq_iff_eq] at hstate
  have hlisted : ListedRunning Sample.answers Sample.lostRevocation.2 "acme" "n1" Sample.container :=
    ⟨by simp [listingOf, Sample.answers], rfl, app, happ, hstate.1.1, hstate.1.2, hstate.2⟩
  have hpass := Sample.executes_pass Sample.lostRevocation.2
  obtain ⟨entry, hexamined, -, -⟩ :=
    (run_stops_iff hpass).mp (h _ _ _ _ _ _ _ _ hrevoke hpass _ _ _ hlisted)
  obtain ⟨workspace, hworkspace, -, hactive⟩ := hexamined.asked.1
  have hnone : ∀ workspace ∈ Sample.lostRevocation.2.workspaces.docs,
      workspace.status ≠ .active := by decide +kernel
  exact hnone workspace hworkspace hactive

end PrivosCluster
