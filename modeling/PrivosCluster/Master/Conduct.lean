import PrivosCluster.AsyncProgram.Delegation
import PrivosCluster.Master.DeploymentFootprint
import PrivosCluster.Master.RuntimeSwap

/-!
# What the operations do to app records

Every operation of the deployment and the lifecycle service acts for one workspace. Its mandate
says which app records it may write, which labels it may give to them and which hosts it may have
removed. All operations keep to it, in whatever company they run.
-/

namespace PrivosCluster

open AsyncProgram DocumentStore Quota Option

/-- A write that leaves the identity of a record, its owner and its label as they are. -/
structure KeepsIdentity (app app' : MasterApp) : Prop where
  appId : app'.appId = app.appId
  workspaceId : app'.workspaceId = app.workspaceId
  subdomain : app'.subdomain = app.subdomain
  generation : app'.mcpGenerationId = app.mcpGenerationId

/--
What an operation of a workspace may do. It may write the records of the workspace, and those with
the id of such a record it has read.
-/
structure Mandate where
  workspaceId : String
  /-- What is known of every record that is read. -/
  reads : MasterApp → Prop
  /-- The records that may be written. -/
  writes : MasterApp → Prop
  /-- Whether records may be made at all. -/
  creates : Prop
  /-- The labels a record may be given. -/
  label : String → Prop
  /-- The app ids whose removed record may be replaced. -/
  revives : String → Prop
  /-- The removals of hosts that may be asked for. -/
  hosts : String → Option String → Prop
  own : ∀ app, app.workspaceId = workspaceId → writes app
  sameId : ∀ app app', reads app → app.workspaceId = workspaceId → app'.appId = app.appId →
    writes app'

namespace Mandate

/-- A record the workspace may make. -/
structure Creates (m : Mandate) (app : MasterApp) : Prop where
  allowed : m.creates
  workspaceId : app.workspaceId = m.workspaceId
  label : ∀ label, app.subdomain = some label → m.label label

def Permits (m : Mandate) : Call → Prop
  | .apps (.insertOne app) => m.Creates app
  | .apps (.replaceOne filter app) => m.Creates app ∧ m.revives app.appId ∧
      ∀ d, filter d = true → d.appId = app.appId ∧ d.state = .removed
  | .apps (.updateOne filter update) =>
    (∀ d, filter d = true → m.writes d) ∧ ∀ d, KeepsIdentity d (update d)
  | .apps (.upsertOne _ _ _) => False
  | .apps (.insertMany _) => False
  | .service (.removeAllAppHosts appId generationId) => m.hosts appId generationId
  | .service (.setWorkspaceHostsSuspended workspaceId _) => workspaceId = m.workspaceId
  | .service (.allocateSubdomain _ workspaceId) => workspaceId = m.workspaceId
  | _ => True

/-- What a mandate relies on: a read finds what it asks for, and the allocator a label in order. -/
def Answers (m : Mandate) : (c : Call) → Except JsError c.Answer → Prop
  | .apps (.findOne filter), .ok found =>
    ∀ app, found = some app → filter app = true ∧ m.reads app
  | .apps (.find filter), .ok found => ∀ app ∈ found, filter app = true ∧ m.reads app
  | .service (.allocateSubdomain _ _), .ok label => m.label label
  | _, _ => True

theorem answers_error (m : Mandate) (c : Call) (e : JsError) : m.Answers c (.error e) := by
  cases c with
  | apps op => cases op <;> trivial
  | service s => cases s <;> trivial
  | _ => trivial

def terms (m : Mandate) : Terms signature JsError where
  allows := m.Permits
  answers := m.Answers
  answerable c := ⟨.error { message := "" }, m.answers_error c _⟩

end Mandate

/-- The program keeps to the mandate, and what it returns satisfies `Q`. -/
abbrev Follows {α : Type} (m : Mandate) (Q : α → Prop) (p : Async α) : Prop :=
  Complies m.terms Q p

/-- The program keeps to the mandate, whatever it returns. -/
abbrev KeepsTo {α : Type} (m : Mandate) (p : Async α) : Prop := Follows m (fun _ ↦ True) p

variable {filter : MasterApp → Bool} {subdomain runtimeInstallationId : String} {α : Type}
  {nodeIds : List String} {body : AgentRequest} {node : MasterNode} {P : α → Prop} {p : Async α}
  {update : MasterApp → MasterApp} {time : Time} {tolerant : Bool} {action : WorkspacePower}
  {hubIdentity : HubIdentity} {replica : AppReplica} {resources : List RuntimeResourceDescriptor}
  {inventory : RuntimeResourceInventory} {attempt : Attempt} {plan : ProvisioningReplicaPlan}
  {command : ClusterReconfigureCommandPayloadV3} {swap : Swap}

variable {β : Type} {Q : β → Prop} {q : Async β}

section Rules

variable {m : Mandate}

theorem follows_call {c : Call} (h : m.Permits c) : KeepsTo m (awaitCall c) :=
  Complies.await h fun _ _ ↦ trivial

theorem follows_now : KeepsTo m now :=
  follows_call (c := .service .now) trivial

theorem follows_randomUUID : KeepsTo m randomUUID :=
  follows_call (c := .service .randomUUID) trivial

theorem follows_findOne :
    Follows m (fun found ↦ ∀ app, found = some app → filter app ∧ m.reads app)
      (Apps.findOne filter) :=
  Complies.await trivial fun _ h ↦ h

theorem follows_find :
    Follows m (fun found ↦ ∀ app ∈ found, filter app ∧ m.reads app) (Apps.find filter) :=
  Complies.await trivial fun _ h ↦ h

theorem follows_lookUp : KeepsTo m (Apps.findOne filter) :=
  follows_call (c := .apps (.findOne filter)) trivial

theorem follows_lifecycleEvents {op : Operation AppLifecycleEvent} :
    KeepsTo m (awaitCall (.lifecycleEvents op)) :=
  follows_call (c := .lifecycleEvents op) trivial

theorem follows_ingressUpsert {nodes : List MasterNode} :
    KeepsTo m (Deployment.ingressUpsert subdomain nodes) :=
  follows_call (c := .service (.ingressUpsert _ _)) trivial

theorem follows_ofExcept {r : Except JsError α} : KeepsTo m (Program.ofExcept r) :=
  Meets.ofExcept fun _ _ ↦ trivial

theorem follows_loadNodes : KeepsTo m (AppLifecycle.loadNodes nodeIds) :=
  follows_call (c := .nodes (.find _)) trivial

variable {workspaceId : String}

theorem follows_request : KeepsTo m (request node workspaceId body) :=
  follows_call (c := .request _) trivial

theorem follows_promiseAll {tasks : List (Async α)} (h : ∀ p ∈ tasks, KeepsTo m p) :
    KeepsTo m (promiseAll tasks) := by
  apply Meets.seq (follows_call (c := .service (.arrivalOrder _)) trivial)
  intro order
  apply Meets.seq ((Meets.settleInOrder h).imp fun _ _ ↦ trivial)
  intro settled
  split <;> trivial

theorem follows_inTurn (hp : Follows m P p) (hq : Follows m Q q) :
    Follows m (fun r ↦ P r.1 ∧ Q r.2) (inTurn p q) := by
  apply Meets.bind hp.settle
  intro a ha
  apply Meets.bind hq.settle
  intro b hb
  exact (Meets.ofExcept ha).bind fun a ha ↦ (Meets.ofExcept hb).bind fun b hb ↦ ⟨ha, hb⟩

theorem follows_promiseBoth (hp : Follows m P p) (hq : Follows m Q q) :
    Follows m (fun r ↦ P r.1 ∧ Q r.2) (promiseBoth p q) := by
  apply Meets.seq (follows_call (c := .service (.arrivalOrder _)) trivial)
  intro order
  split
  · exact follows_inTurn hp hq
  · exact (follows_inTurn hq hp).bind fun r hr ↦ ⟨hr.2, hr.1⟩

theorem follows_withWorkspaceLock {Q : α → Prop} (hp : Follows m Q p) :
    Follows m Q (withWorkspaceLock workspaceId p) :=
  Meets.seq (follows_call (c := .acquire _) trivial) fun _ ↦
    hp.finallyDo (follows_call (c := .release _) trivial)

theorem follows_requestNode {node : Option MasterNode} :
    KeepsTo m (requestNode node workspaceId body) := by
  cases node with
  | none => trivial
  | some node => exact follows_request

theorem follows_updateOne (hfilter : ∀ d, filter d → m.writes d)
    (hupdate : ∀ d, KeepsIdentity d (update d)) : KeepsTo m (Apps.updateOne filter update) :=
  follows_call (c := .apps (.updateOne filter update)) ⟨hfilter, hupdate⟩

theorem writes_byId {appId : String} {app : MasterApp}
    (h : AppLifecycle.byId m.workspaceId appId app) : m.writes app :=
  m.own app (AppLifecycle.byId_iff.mp h).2

theorem writes_byId_and {appId : String} {app : MasterApp} {b : Bool}
    (h : (AppLifecycle.byId m.workspaceId appId app && b)) : m.writes app :=
  writes_byId (Bool.and_eq_true _ _ ▸ h).1

/-- An update of a record of the workspace. -/
theorem follows_amend {appId : String} (hupdate : ∀ d, KeepsIdentity d (update d)) :
    KeepsTo m (Apps.updateOne (AppLifecycle.byId m.workspaceId appId) update) :=
  follows_updateOne (fun _ ↦ writes_byId) hupdate

theorem follows_amendIf {appId : String} {condition : MasterApp → Bool}
    (hupdate : ∀ d, KeepsIdentity d (update d)) :
    KeepsTo m (Apps.updateOne
      (fun app ↦ AppLifecycle.byId m.workspaceId appId app && condition app) update) :=
  follows_updateOne (fun _ ↦ writes_byId_and) hupdate

theorem follows_tolerateDuplicate {write : Async Unit} (h : KeepsTo m write) :
    KeepsTo m (Deployment.tolerateDuplicate write) := by
  apply Meets.tryCatch h
  intro error
  split <;> trivial

end Rules

/-! ## The lifecycle service -/

namespace AppLifecycle

variable {m : Mandate} {deps : LifecycleDeps} {appId : String}

/-- A loaded record is one of the workspace, and known. -/
theorem follows_load :
    Follows m (fun app ↦ byId m.workspaceId appId app ∧ m.reads app)
      (load m.workspaceId appId) := by
  apply follows_findOne.bind
  intro found hfound
  cases found with
  | none => trivial
  | some app =>
    obtain ⟨hfilter, hreads⟩ := hfound app rfl
    rw [Bool.and_eq_true] at hfilter
    exact ⟨hfilter.1, hreads⟩

theorem follows_get : KeepsTo m (get m.workspaceId appId) :=
  follows_load.bind fun _ _ ↦ trivial

variable {workspaceId : String} {replicas : List AppReplica}

theorem follows_insertReplicaEvents {app : MasterApp} {type : LifecycleEventType}
    {resources : ContainerResources} {storageBytes : Option Nat} :
    KeepsTo m (insertReplicaEvents workspaceId app replicas type resources storageBytes time) := by
  have hevents : ∀ replica ∈ replicas, Follows m (fun _ : AppLifecycleEvent ↦ True) (do
      let eventId ← randomUUID
      .pure
        { eventId, workspaceId, appId := app.appId, replicaId := some replica.replicaId, type,
          resources, storageBytes, time }) :=
    fun _ _ ↦ follows_randomUUID.seq fun _ ↦ trivial
  apply (Meets.mapEach hevents).bind
  intro events _
  exact follows_call trivial

theorem follows_publish : KeepsTo m (publish deps) :=
  Meets.onlyIf fun _ ↦ follows_call trivial

theorem follows_assertResponses {responses : List AgentResponse} :
    KeepsTo m (assertResponses responses tolerant) := by
  unfold assertResponses
  split <;> trivial

variable {nodes : List MasterNode}

/-- A batch of requests to replicas. -/
theorem follows_requestReplicas {command : AppReplica → AgentRequest} :
    KeepsTo m (promiseAll (replicas.map fun replica ↦
      requestNode (nodeOf nodes replica.nodeId) workspaceId (command replica))) := by
  apply follows_promiseAll
  intro p hp
  obtain ⟨replica, -, rfl⟩ := List.mem_map.mp hp
  exact follows_requestNode

/-- A batch that leaves out the replicas whose node is lost. -/
theorem follows_requestKnown {command : AppReplica → AgentRequest}
    (wrap : Async AgentResponse → Async α) (hwrap : ∀ p, KeepsTo m p → KeepsTo m (wrap p)) :
    KeepsTo m (promiseAll (replicas.filterMap fun replica ↦
      (nodeOf nodes replica.nodeId).map fun node ↦
        wrap (request node workspaceId (command replica)))) := by
  apply follows_promiseAll
  intro p hp
  obtain ⟨replica, -, hp⟩ := List.mem_filterMap.mp hp
  obtain ⟨node, -, rfl⟩ := Option.map_eq_some_iff.mp hp
  exact hwrap _ follows_request

theorem invoke_follows {action : PowerAction} :
    KeepsTo m (invoke deps m.workspaceId appId action) := by
  apply follows_load.bind
  intro app _
  apply Meets.throwIf.bind
  intro _ _
  apply follows_loadNodes.seq
  intro nodes
  apply follows_requestReplicas.seq
  intro responses
  apply follows_assertResponses.seq
  intro _
  apply follows_now.seq
  intro time
  refine Meets.seq (follows_amend fun _ ↦ ⟨rfl, rfl, rfl, rfl⟩) fun _ ↦ ?_
  apply (Meets.onlyIf fun _ ↦ follows_insertReplicaEvents).seq
  intro _
  exact follows_publish.seq fun _ ↦ follows_get

theorem setAppPower_follows {app : MasterApp} :
    KeepsTo m (setAppPower m.workspaceId action nodes time app) := by
  apply (follows_requestKnown id fun _ h ↦ h).seq
  intro responses
  apply follows_assertResponses.seq
  intro _
  refine Meets.seq (follows_amend fun _ ↦ ⟨rfl, rfl, rfl, rfl⟩) fun _ ↦ ?_
  exact follows_insertReplicaEvents

theorem setWorkspacePower_follows : KeepsTo m (setWorkspacePower deps m.workspaceId action) := by
  apply follows_find.bind
  intro apps _
  have hhosts : KeepsTo m
      (switchHosts deps m.workspaceId (action = .suspend)) := by
    unfold switchHosts
    split
    · exact follows_call (c := .service (.setWorkspaceHostsSuspended _ _)) rfl
    · trivial
  apply hhosts.seq
  intro affectedHosts
  split
  · exact (Meets.onlyIf fun _ ↦ follows_publish).seq fun _ ↦ trivial
  · apply follows_loadNodes.seq
    intro nodes
    apply follows_now.seq
    intro time
    apply (Meets.forEach fun _ _ ↦ setAppPower_follows).seq
    intro _
    exact follows_publish.seq fun _ ↦ trivial

theorem redeploy_follows {input : RedeployInput} :
    KeepsTo m (redeploy m.workspaceId appId input) := by
  apply follows_load.bind
  intro app _
  apply Meets.throwIf.bind
  intro _ _
  apply follows_loadNodes.seq
  intro nodes
  apply follows_requestReplicas.seq
  intro responses
  apply follows_assertResponses.seq
  intro _
  apply follows_now.seq
  intro time
  refine Meets.seq (follows_amend fun _ ↦ ⟨rfl, rfl, rfl, rfl⟩) fun _ ↦ ?_
  exact follows_insertReplicaEvents.seq fun _ ↦ follows_get

theorem quarantine_follows {app : MasterApp} :
    KeepsTo m (quarantine deps m.workspaceId appId app) := by
  unfold quarantine
  split
  · trivial
  · apply follows_loadNodes.seq
    intro nodes
    apply (follows_requestKnown Program.settle fun _ h ↦ h.settle.imp fun _ _ ↦ trivial).seq
    intro _
    apply follows_now.seq
    intro time
    refine Meets.seq (follows_amend fun _ ↦ ⟨rfl, rfl, rfl, rfl⟩) fun _ ↦ ?_
    exact follows_insertReplicaEvents.seq fun _ ↦ follows_publish

theorem removeContainers_follows :
    KeepsTo m (removeContainers workspaceId nodes replicas tolerant) := by
  unfold removeContainers
  split
  · exact follows_requestKnown id fun _ h ↦ h
  · have hdelete : KeepsTo m (deleteReplicas workspaceId nodes
        (replicas.takeWhile fun replica ↦ (nodeOf nodes replica.nodeId).isSome)) :=
      follows_requestKnown id fun _ h ↦ h
    exact hdelete.settle.bind fun _ _ ↦ Meets.throw

/-- The only thing a teardown needs beyond its workspace is to have the hosts removed. -/
theorem destroy_follows {app : MasterApp}
    (hhosts : deps.appHosts → m.hosts appId app.mcpGenerationId) :
    KeepsTo m (destroy deps m.workspaceId appId app tolerant) := by
  apply follows_now.seq
  intro startedAt
  refine Meets.seq (follows_amend fun _ ↦ ⟨rfl, rfl, rfl, rfl⟩) fun _ ↦ ?_
  apply follows_loadNodes.seq
  intro nodes
  apply removeContainers_follows.seq
  intro responses
  apply follows_assertResponses.seq
  intro _
  apply (Meets.forSome fun _ _ ↦ follows_call (c := .service (.ingressRemove _)) trivial).seq
  intro _
  apply (Meets.onlyIf fun h ↦ follows_call (c := .service (.removeAllAppHosts _ _)) (hhosts h)).seq
  intro _
  apply follows_now.seq
  intro time
  refine Meets.seq (follows_amend fun _ ↦ ⟨rfl, rfl, rfl, rfl⟩) fun _ ↦ ?_
  apply follows_publish.seq
  intro _
  apply follows_insertReplicaEvents.seq
  intro _
  exact follows_randomUUID.seq fun _ ↦ follows_call trivial

theorem remove_follows {workspaceRevoked : Bool}
    (hhosts : deps.appHosts → workspaceRevoked = false → ∀ app,
      byId m.workspaceId appId app → m.reads app → m.hosts appId app.mcpGenerationId) :
    KeepsTo m (remove deps m.workspaceId appId workspaceRevoked) := by
  apply follows_load.bind
  intro app happ
  apply Meets.throwIf.bind
  intro _ _
  cases workspaceRevoked with
  | true => exact quarantine_follows
  | false => exact destroy_follows fun h ↦ hhosts h rfl app happ.1 happ.2

theorem reapQuarantined_follows
    (hhosts : deps.appHosts → ∀ app, byId m.workspaceId appId app → m.reads app →
      m.hosts appId app.mcpGenerationId) :
    KeepsTo m (reapQuarantined deps m.workspaceId appId) := by
  apply follows_now.seq
  intro time
  refine Meets.seq (follows_amendIf fun _ ↦ ⟨rfl, rfl, rfl, rfl⟩) fun claimed ↦ ?_
  split
  · trivial
  · apply follows_findOne.bind
    intro found hfound
    cases found with
    | none => trivial
    | some app =>
      obtain ⟨hby, hreads⟩ := hfound app rfl
      exact destroy_follows fun h ↦ hhosts h app hby hreads

theorem unquarantine_follows : KeepsTo m (unquarantine deps m.workspaceId appId) := by
  apply follows_now.seq
  intro time
  refine Meets.seq (follows_amendIf fun _ ↦ ⟨rfl, rfl, rfl, rfl⟩) fun claimed ↦ ?_
  split
  · trivial
  · apply follows_findOne.bind
    intro found _
    cases found with
    | none => trivial
    | some app =>
      apply follows_loadNodes.seq
      intro nodes
      apply (follows_requestKnown id fun _ h ↦ h).seq
      intro responses
      apply follows_assertResponses.seq
      intro _
      apply follows_now.seq
      intro startedAt
      apply follows_insertReplicaEvents.seq
      intro _
      apply follows_randomUUID.seq
      intro eventId
      exact follows_lifecycleEvents.seq fun _ ↦ follows_publish

end AppLifecycle

/-! ## The deployment service: raw and v2 apps -/

namespace Deployment

open AppLifecycle

variable {m : Mandate} {deps : DeploymentDeps} {appId : String}

variable {workspaceId : String}

theorem follows_installedApps : KeepsTo m (installedApps workspaceId) := by
  apply follows_now.seq
  intro time
  have hread := follows_promiseBoth (m := m) (P := fun _ ↦ True) (Q := fun _ ↦ True)
    (follows_call (c := .workspaces (.findOne fun workspace ↦
      workspace.workspaceId == workspaceId && workspace.status == .active)) trivial)
    (follows_call (c := .apps (.find fun app ↦ app.workspaceId == workspaceId &&
      installedCandidateStates.contains app.state)) trivial)
  apply Meets.bind hread
  intro found _
  obtain ⟨workspace, candidates⟩ := found
  cases workspace <;> trivial

theorem follows_assertWithin {quota : WorkspaceQuota} {wanted : Quota.Usage} :
    KeepsTo m (assertWithin quota wanted) :=
  Meets.throwIf.bind fun _ _ ↦ Meets.throwIf.imp fun _ _ ↦ trivial

theorem follows_loadFleet : KeepsTo m loadFleet :=
  (follows_promiseBoth (P := fun _ ↦ True) (Q := fun _ ↦ True)
    (follows_call (c := .nodes (.find fun node ↦ node.status == .active)) trivial)
    (follows_call (c := .apps (.find fun app ↦ app.state == .running)) trivial)).imp
    fun _ _ ↦ trivial

variable {input : DeployInput}

theorem follows_place : KeepsTo m (place workspaceId input) := by
  apply Meets.throwIf.bind
  intro _ _
  have hquota : KeepsTo m
      (assertDeployAllowed workspaceId input.resources input.replicaCount) :=
    follows_installedApps.seq fun _ ↦ Meets.throwIf.bind fun _ _ ↦ follows_assertWithin
  apply hquota.seq
  intro _
  apply follows_loadFleet.seq
  intro fleet
  exact follows_ofExcept

/-- An allocated label is in order. -/
theorem follows_allocateSubdomain {listingId : String} :
    Follows m m.label (allocateSubdomain listingId m.workspaceId) :=
  Complies.await (t := m.terms) (c := Call.service (.allocateSubdomain listingId m.workspaceId)) rfl
    fun _ h ↦ h

theorem follows_undoReplicas {nodes : List MasterNode} {replicas : List AppReplica} :
    KeepsTo m (undoReplicas workspaceId nodes replicas) := by
  have htasks : ∀ p ∈ replicas.map fun replica ↦ (requestNode (nodeOf nodes replica.nodeId)
      workspaceId (.remove replica.containerId)).settle, KeepsTo m p := by
    intro p hp
    obtain ⟨replica, -, rfl⟩ := List.mem_map.mp hp
    exact follows_requestNode.settle.imp fun _ _ ↦ trivial
  exact (follows_promiseAll htasks).seq fun _ ↦ trivial

variable {app : MasterApp}

theorem follows_recordAppInstalledEvent : KeepsTo m (recordAppInstalledEvent app time) :=
  follows_tolerateDuplicate follows_lifecycleEvents

/-- A record of the workspace with a label in order. -/
theorem follows_insertOne (h : m.Creates app) : KeepsTo m (Apps.insertOne app) :=
  follows_call (c := .apps (.insertOne app)) h

theorem deployReplica_follows {appId : String} :
    KeepsTo m (deployReplica deps workspaceId appId subdomain input node) := by
  apply follows_request.seq
  intro response
  apply Meets.throwIf.bind
  intro _ _
  exact follows_randomUUID.seq fun _ ↦ trivial

theorem deployToNodes_follows {nodes : List MasterNode} (hmake : m.creates) :
    KeepsTo m (deployToNodes deps m.workspaceId input nodes) := by
  have happId : KeepsTo m (input.appId.elim randomUUID Program.pure) := by
    cases input.appId with
    | none => exact follows_randomUUID
    | some appId => trivial
  apply happId.seq
  intro appId
  apply follows_allocateSubdomain.bind
  intro subdomain hsubdomain
  apply (Meets.collectEach (Q := fun _ ↦ True) (fun _ _ ↦ deployReplica_follows)
    fun _ _ ↦ trivial).bind
  intro attempted _
  obtain ⟨replicas, failure⟩ := attempted
  have hingress : KeepsTo m
      (failure.elim (ingressUpsert subdomain nodes) Program.throw) := by
    cases failure with
    | none => exact follows_ingressUpsert
    | some error => trivial
  apply hingress.settle.bind
  intro outcome _
  cases outcome with
  | error error => exact follows_undoReplicas.seq fun _ ↦ Meets.throw
  | ok _ =>
    apply follows_now.seq
    intro time
    have hcreates : m.Creates
        (recordOf deps m.workspaceId appId input subdomain replicas .running time) :=
      ⟨hmake, rfl, fun label hlabel ↦ some.inj hlabel ▸ hsubdomain⟩
    apply (follows_insertOne hcreates).seq
    intro _
    apply follows_insertReplicaEvents.seq
    intro _
    exact follows_recordAppInstalledEvent.seq fun _ ↦ trivial

theorem deploy_follows {raw : RawDeploy} (hmake : m.creates) :
    KeepsTo m (deploy deps m.workspaceId raw) := by
  apply follows_ofExcept.seq
  intro input
  apply follows_withWorkspaceLock
  have hfound : KeepsTo m (findDeployed m.workspaceId input) := by
    unfold findDeployed
    split
    · trivial
    · exact follows_lookUp
  apply hfound.seq
  intro existing
  cases existing with
  | some existing => trivial
  | none => exact follows_place.seq fun _ ↦ deployToNodes_follows hmake

theorem deployMcpReplica_follows {appId deploymentGrantHash : String}
    {grant : McpDeploymentGrantPayload} :
    KeepsTo m (deployMcpReplica deps workspaceId appId subdomain input grant
      deploymentGrantHash hubIdentity node) := by
  apply follows_randomUUID.seq
  intro replicaId
  apply follows_request.seq
  intro response
  apply Meets.throwIf.bind
  intro _ _
  apply follows_ofExcept.seq
  intro identity
  apply follows_now.seq
  intro time
  exact (follows_call (c := .nodes (.updateOne _ _)) trivial).seq fun _ ↦ trivial

/-- A label the grant chooses itself has to be in order beforehand. -/
theorem deployMcp_follows {grant : McpDeploymentGrantPayload} {deploymentGrantHash : String}
    (hmake : m.creates)
    (hlabel : ∀ label, grant.deployment.subdomain = some label → m.label label) :
    KeepsTo m (deployMcp deps m.workspaceId grant deploymentGrantHash hubIdentity) := by
  apply follows_ofExcept.seq
  intro input
  apply follows_withWorkspaceLock
  apply follows_findOne.bind
  intro existing _
  cases existing with
  | some existing => exact Meets.throwIf.bind fun _ _ ↦ trivial
  | none =>
    apply follows_place.seq
    intro nodes
    have hsubdomain : Follows m m.label (grant.deployment.subdomain.elim
        (allocateSubdomain input.listingId m.workspaceId) Program.pure) := by
      cases hchosen : grant.deployment.subdomain with
      | none => exact follows_allocateSubdomain
      | some label => exact hlabel label hchosen
    apply hsubdomain.bind
    intro subdomain hsubdomain
    apply (Meets.collectEach (Q := fun _ ↦ True) (fun _ _ ↦ deployMcpReplica_follows)
      fun _ _ ↦ trivial).bind
    intro attempted _
    obtain ⟨replicas, failure⟩ := attempted
    cases failure with
    | some error => exact follows_undoReplicas.seq fun _ ↦ Meets.throw
    | none =>
      apply follows_now.seq
      intro time
      have hcreates : m.Creates (mcpRecordOf deps m.workspaceId grant.deployment.appId input grant
          subdomain replicas time) :=
        ⟨hmake, rfl, fun label hlabel ↦ some.inj hlabel ▸ hsubdomain⟩
      apply (follows_insertOne hcreates).seq
      intro _
      exact follows_insertReplicaEvents.seq fun _ ↦ trivial

/-- The switch to RUNNING names the record by its id alone; the record is the one that was read. -/
theorem activateMcp_follows {input : McpActivation} :
    KeepsTo m (activateMcp m.workspaceId input) := by
  apply follows_withWorkspaceLock
  apply follows_findOne.bind
  intro found hfound
  cases found with
  | none => trivial
  | some app =>
    obtain ⟨hfilter, hreads⟩ := hfound app rfl
    have hown : app.workspaceId = m.workspaceId := by
      simp only [Bool.and_eq_true, beq_iff_eq] at hfilter
      exact hfilter.1.1
    apply Meets.throwIf.bind
    intro _ _
    split
    · trivial
    · apply Meets.throwIf.bind
      intro _ _
      apply follows_loadNodes.seq
      intro nodes
      apply Meets.throwIf.bind
      intro _ _
      apply follows_ingressUpsert.seq
      intro _
      apply follows_now.seq
      intro activatedAt
      have hwrites : ∀ d, (d.appId == app.appId && d.state == .quarantined) →
          m.writes d := by
        intro d hd
        rw [Bool.and_eq_true, beq_iff_eq] at hd
        exact m.sameId app d hreads hown hd.1
      refine Meets.seq (follows_updateOne hwrites fun _ ↦ ⟨rfl, rfl, rfl, rfl⟩) fun activated ↦ ?_
      exact (Meets.onlyIf fun _ ↦ follows_recordAppInstalledEvent).seq fun _ ↦ trivial

theorem tierEvent_follows {replicaCount : Nat} :
    KeepsTo m (tierEvent workspaceId app replicaCount time) :=
  follows_randomUUID.seq fun _ ↦ follows_lifecycleEvents

theorem raiseTier_follows : KeepsTo m (raiseTier deps m.workspaceId appId app) := by
  apply Meets.throwIf.bind
  intro _ _
  have hquota : KeepsTo m
      (assertAdditionalReplicaAllowed m.workspaceId app.resources) :=
    follows_installedApps.seq fun _ ↦ follows_assertWithin
  apply hquota.seq
  intro _
  apply follows_loadFleet.seq
  intro fleet
  apply follows_ofExcept.seq
  intro node
  apply follows_request.seq
  intro response
  apply Meets.throwIf.bind
  intro _ _
  apply follows_randomUUID.seq
  intro replicaId
  apply follows_now.seq
  intro time
  apply follows_ingressUpsert.seq
  intro _
  refine Meets.seq (follows_amend fun _ ↦ ⟨rfl, rfl, rfl, rfl⟩) fun _ ↦ ?_
  apply follows_randomUUID.seq
  intro eventId
  exact follows_lifecycleEvents.seq fun _ ↦ tierEvent_follows

theorem dropReplica_follows {nodes : List MasterNode} :
    KeepsTo m (dropReplica workspaceId nodes replica) := by
  unfold dropReplica
  split
  · trivial
  · exact follows_request.seq fun _ ↦ Meets.throwIf.imp fun _ _ ↦ trivial

theorem lowerTier_follows : KeepsTo m (lowerTier m.workspaceId appId app) := by
  unfold lowerTier
  split
  · trivial
  · apply follows_loadNodes.seq
    intro nodes
    apply (Meets.forEach fun _ _ ↦ dropReplica_follows).seq
    intro _
    apply follows_now.seq
    intro time
    apply follows_ingressUpsert.seq
    intro _
    refine Meets.seq (follows_amend fun _ ↦ ⟨rfl, rfl, rfl, rfl⟩) fun _ ↦ ?_
    exact Meets.onlyIf fun _ ↦ follows_insertReplicaEvents.seq fun _ ↦ tierEvent_follows

theorem changeAvailabilityTier_follows {availabilityTier : AvailabilityTier} :
    KeepsTo m (changeAvailabilityTier deps m.workspaceId appId availabilityTier) := by
  apply follows_withWorkspaceLock
  apply follows_findOne.bind
  intro found _
  cases found with
  | none => trivial
  | some app =>
    apply Meets.throwIf.bind
    intro _ _
    split
    · trivial
    · apply Meets.throwIf.bind
      intro _ _
      have happly : KeepsTo m
          (applyTier deps m.workspaceId appId app availabilityTier) := by
        unfold applyTier
        split
        · exact raiseTier_follows
        · exact lowerTier_follows
      exact happly.seq fun _ ↦ follows_lookUp

end Deployment

/-! ## The deployment service: v3 apps -/

namespace DeploymentV3

open AppLifecycle Deployment

variable {m : Mandate} {deps : DeploymentDeps}

variable {inventoryId : String}

theorem follows_findInventory : KeepsTo m (findInventory inventoryId) :=
  follows_call (c := .runtimeResourceInventories (.findOne _)) trivial

theorem follows_loadInventory {member : String} : KeepsTo m (loadInventory inventoryId member) := by
  apply follows_findInventory.seq
  intro found
  cases found <;> trivial

variable {workspaceId : String} {grant : McpDeploymentGrantPayloadV3}

theorem follows_openInventory :
    KeepsTo m (openInventory workspaceId inventoryId grant) := by
  apply follows_findInventory.seq
  intro found
  cases found with
  | some inventory => trivial
  | none =>
    apply follows_now.seq
    intro createdAt
    apply follows_ofExcept.seq
    intro capturing
    apply (follows_call (c := .runtimeResourceInventories (.insertOne capturing)) trivial).settle.bind
    intro inserted _
    cases inserted with
    | ok _ => trivial
    | error error =>
      dsimp only
      split
      · apply follows_findInventory.seq
        intro concurrent
        cases concurrent <;> trivial
      · trivial

theorem follows_captureResources : KeepsTo m (captureResources inventoryId resources) := by
  apply follows_now.seq
  intro time
  exact (follows_call (c := .runtimeResourceInventories (.updateOne _ _)) trivial).seq
    fun _ ↦ trivial

theorem follows_persistFinalized :
    KeepsTo m (persistFinalized deps.crypto inventoryId inventory resources) := by
  apply follows_ofExcept.seq
  intro normalized
  apply follows_now.seq
  intro time
  apply follows_ofExcept.seq
  intro finalized
  apply (follows_call (c := .runtimeResourceInventories (.updateOne _ _)) trivial).seq
  intro finalizedWrite
  split
  · trivial
  · exact follows_loadInventory

variable {app : MasterApp}

theorem follows_finishCapture : KeepsTo m (finishCapture deps inventoryId app inventory) := by
  unfold finishCapture
  split
  · trivial
  · apply (Meets.forSome fun _ _ ↦ follows_captureResources).seq
    intro _
    exact follows_loadInventory.seq fun _ ↦ follows_persistFinalized

theorem recoverMcpV3InventoryAttestation_follows :
    KeepsTo m (recoverMcpV3InventoryAttestation deps workspaceId runtimeInstallationId) := by
  apply follows_withWorkspaceLock
  apply follows_findOne.bind
  intro app _
  cases app with
  | none => trivial
  | some app =>
    apply follows_findInventory.seq
    intro found
    cases found with
    | none => trivial
    | some found =>
      apply Meets.throwIf.bind
      intro _ _
      have hrecover : ∀ inventoryId, KeepsTo m
          (recoverInventory deps inventoryId app found) := by
        intro inventoryId
        unfold recoverInventory
        split
        · apply follows_loadNodes.seq
          intro nodes
          apply follows_ofExcept.seq
          intro planned
          exact follows_persistFinalized
        · trivial
      apply (hrecover _).seq
      intro inventory
      exact Meets.throwIf.bind fun _ _ ↦ trivial

theorem follows_findGeneration : KeepsTo m (findGeneration workspaceId grant) :=
  follows_lookUp

theorem follows_reload : KeepsTo m (reload workspaceId app) :=
  follows_lookUp.seq fun _ ↦ trivial

theorem follows_platformEnvVarsV3 : KeepsTo m (platformEnvVarsV3 deps app) := by
  have hprimary : KeepsTo m (resolvePrimaryUrl deps app) := by
    unfold resolvePrimaryUrl
    split
    · exact (follows_call (c := .service (.primaryOf _ _)) trivial).seq fun _ ↦ trivial
    · trivial
  exact hprimary.seq fun _ ↦ trivial

/-- A revival replaces only a removed record with the id of the new one. -/
theorem follows_reviveTombstone (h : m.Creates app) (hrevives : m.revives app.appId) :
    KeepsTo m (reviveTombstone app) := by
  have hfilter : ∀ d : MasterApp, (d.appId == app.appId && d.state == .removed) →
      d.appId = app.appId ∧ d.state = .removed := by
    simp
  apply (follows_call (c := .apps (.replaceOne _ app)) ⟨h, hrevives, hfilter⟩).settle.bind
  intro revived _
  cases revived with
  | ok result => trivial
  | error error =>
    dsimp only
    split
    · have hcollides : KeepsTo m (replacementCollides app error) := by
        unfold replacementCollides
        split
        · trivial
        · split
          · trivial
          · exact follows_lookUp.seq fun _ ↦ trivial
      exact hcollides.seq fun _ ↦ trivial
    · trivial

variable {deploymentGrantHash : String}

theorem follows_claimRow (h : m.Creates app) (hrevives : m.revives app.appId) :
    KeepsTo m (claimRow workspaceId grant deploymentGrantHash app) := by
  apply (follows_insertOne h).settle.bind
  intro inserted _
  cases inserted with
  | ok _ => trivial
  | error error =>
    dsimp only
    split
    · trivial
    · split
      · trivial
      · apply (follows_reviveTombstone h hrevives).seq
        intro revived
        split
        · trivial
        · apply follows_findGeneration.seq
          intro concurrent
          cases concurrent with
          | none => trivial
          | some concurrent => exact Meets.throwIf.bind fun _ _ ↦ trivial

/-- The chosen label has to be in order beforehand, an allocated one is. -/
theorem follows_chooseLabel {input : DeployInput}
    (hlabel : ∀ label, grant.deployment.subdomain = some label → m.label label) :
    Follows m (fun chosen ↦ ∀ label, chosen = some label → m.label label)
      (chooseLabel deps m.workspaceId input grant) := by
  unfold chooseLabel
  split
  next label hchosen =>
    intro label' hlabel'
    exact hlabel label' (hchosen.trans hlabel')
  · split
    · exact nofun
    · apply follows_allocateSubdomain.bind
      intro label hallocated label' hlabel'
      exact some.inj hlabel' ▸ hallocated

theorem follows_createRow {input : DeployInput} (hmake : m.creates)
    (hlabel : ∀ label, grant.deployment.subdomain = some label → m.label label)
    (hrevives : m.revives grant.deployment.clusterAppId) :
    KeepsTo m (createRow deps m.workspaceId grant deploymentGrantHash input) := by
  apply follows_place.seq
  intro selected
  apply follows_now.seq
  intro time
  apply (follows_chooseLabel hlabel).bind
  intro subdomain hsubdomain
  have hplan : ∀ node ∈ selected, KeepsTo m (planReplica node) :=
    fun _ _ ↦ follows_randomUUID.seq fun _ ↦ follows_randomUUID.seq fun _ ↦ trivial
  apply (Meets.mapEach hplan).bind
  intro plans _
  refine follows_claimRow ⟨hmake, rfl, fun label hkept ↦ ?_⟩ hrevives
  exact hsubdomain label (Option.filter_eq_some_iff.mp hkept).1

theorem provisionReplica_follows (hworkspace : attempt.workspaceId = m.workspaceId) :
    KeepsTo m (provisionReplica attempt app plan node) := by
  unfold provisionReplica
  rw [hworkspace]
  apply follows_platformEnvVarsV3.seq
  intro platformEnvVars
  apply follows_request.seq
  intro response
  apply Meets.throwIf.bind
  intro _ _
  apply follows_ofExcept.seq
  intro replica
  apply follows_captureResources.seq
  intro _
  apply follows_now.seq
  intro time
  refine Meets.seq (follows_amendIf fun _ ↦ ⟨rfl, rfl, rfl, rfl⟩) fun _ ↦ ?_
  exact follows_reload.seq fun _ ↦ trivial

theorem provisionPlan_follows {progress : MasterApp × List AgentBody}
    (hworkspace : attempt.workspaceId = m.workspaceId) :
    KeepsTo m (provisionPlan attempt progress plan) := by
  unfold provisionPlan
  split
  · trivial
  · dsimp only
    split
    · trivial
    · split
      · exact (provisionReplica_follows hworkspace).seq fun _ ↦ trivial
      · exact (Meets.onlyIf fun _ ↦ follows_captureResources).seq fun _ ↦ trivial

theorem provision_follows (hworkspace : attempt.workspaceId = m.workspaceId) :
    KeepsTo m (provision attempt app) := by
  unfold provision
  rw [hworkspace]
  apply Meets.seq (Meets.foldEach (R := fun _ ↦ True)
    (fun _ _ _ _ ↦ provisionPlan_follows hworkspace) trivial)
  intro progress
  apply follows_reload.seq
  intro app
  apply follows_finishCapture.seq
  intro inventory
  apply Meets.throwIf.bind
  intro _ _
  apply follows_ofExcept.seq
  intro _
  apply follows_ofExcept.seq
  intro readyInventory
  have hfinalize : ∀ replica ∈ app.replicas, KeepsTo m
      (finalizeReplica attempt (readyInventory.runtimeResourceInventoryHash.getD "") replica) :=
    fun _ _ ↦ follows_requestNode.seq fun _ ↦ Meets.throwIf.imp fun _ _ ↦ trivial
  apply (Meets.forEach hfinalize).seq
  intro _
  apply follows_now.seq
  intro time
  refine Meets.seq (follows_amendIf fun _ ↦ ⟨rfl, rfl, rfl, rfl⟩) fun _ ↦ ?_
  apply follows_reload.seq
  intro app
  exact Meets.throwIf.bind fun _ _ ↦ trivial

theorem deployMcpV3_follows (hmake : m.creates)
    (hlabel : ∀ label, grant.deployment.subdomain = some label → m.label label)
    (hrevives : m.revives grant.deployment.clusterAppId) :
    KeepsTo m (deployMcpV3 deps m.workspaceId grant deploymentGrantHash hubIdentity) := by
  apply follows_ofExcept.seq
  intro input
  apply Meets.throwIf.bind
  intro _ _
  apply Meets.throwIf.bind
  intro _ _
  apply follows_withWorkspaceLock
  have hrow : KeepsTo m
      (obtainRow deps m.workspaceId grant deploymentGrantHash input) := by
    apply follows_findGeneration.seq
    intro existing
    cases existing with
    | none => exact follows_createRow hmake hlabel hrevives
    | some app => exact Meets.throwIf.bind fun _ _ ↦ trivial
  apply hrow.seq
  intro app
  apply follows_openInventory.seq
  intro inventory
  apply Meets.throwIf.bind
  intro _ _
  apply follows_loadNodes.seq
  intro nodes
  apply Meets.throwIf.bind
  intro _ _
  exact provision_follows rfl

theorem recordMcpV3StartedEvents_follows {establishedAt : Time} :
    KeepsTo m (recordMcpV3StartedEvents app establishedAt) :=
  Meets.forEach fun _ _ ↦ follows_tolerateDuplicate follows_lifecycleEvents

theorem follows_loadActiveNodes : KeepsTo m (loadActiveNodes nodeIds) :=
  follows_call (c := .nodes (.find _)) trivial

theorem establish_follows : KeepsTo m (establish m.workspaceId app) := by
  apply Meets.throwIf.bind
  intro _ _
  apply follows_loadActiveNodes.seq
  intro nodes
  apply Meets.throwIf.bind
  intro _ _
  apply (Meets.forSome fun _ _ ↦ follows_call (c := .service (.ingressUpsert _ _)) trivial).seq
  intro _
  apply follows_now.seq
  intro establishedAt
  refine Meets.seq (follows_amendIf fun _ ↦ ⟨rfl, rfl, rfl, rfl⟩) fun activated ↦ ?_
  split
  · apply follows_lookUp.seq
    intro concurrent
    split <;> trivial
  · apply recordMcpV3StartedEvents_follows.seq
    intro _
    exact follows_recordAppInstalledEvent.seq fun _ ↦ trivial

theorem activateMcpV3_follows {input : McpV3Activation} :
    KeepsTo m (activateMcpV3 deps m.workspaceId input) := by
  apply follows_withWorkspaceLock
  apply follows_lookUp.seq
  intro found
  split
  · trivial
  · apply follows_findInventory.seq
    intro inventory
    apply Meets.throwIf.bind
    intro _ _
    split
    · exact recordMcpV3StartedEvents_follows.seq fun _ ↦ trivial
    · exact establish_follows

end DeploymentV3

namespace RuntimeSwap

open AppLifecycle Deployment DeploymentV3

variable {m : Mandate} {deps : DeploymentDeps}

theorem follows_loadReplicaNodes {app : MasterApp} : KeepsTo m (loadReplicaNodes app) :=
  follows_loadActiveNodes.seq fun _ ↦ Meets.throwIf.bind fun _ _ ↦ trivial

theorem follows_findInstallation {workspaceId : String} :
    KeepsTo m (findInstallation workspaceId runtimeInstallationId) :=
  follows_lookUp

theorem follows_checkResize {workspaceId : String} {app : MasterApp}
    {resources : Option ContainerResources} :
    KeepsTo m (checkResize workspaceId app resources) := by
  cases resources with
  | none => exact follows_loadReplicaNodes
  | some requested =>
    have hquota : KeepsTo m
        (assertResizeAllowed workspaceId app requested) :=
      follows_installedApps.seq fun _ ↦ follows_assertWithin
    apply hquota.seq
    intro _
    apply follows_loadReplicaNodes.seq
    intro nodes
    apply (follows_call (c := .apps (.find _)) trivial).seq
    intro running
    exact follows_ofExcept.seq fun _ ↦ trivial

theorem reconfigureReplica_follows {swap : Reconfiguration} {done : List (AppReplica × AgentBody)} :
    KeepsTo m (reconfigureReplica swap done replica) := by
  apply follows_requestNode.seq
  intro response
  split
  · have hrollBack : ∀ failed replica, KeepsTo m
        (rollBackResize swap failed replica) := by
      intro failed replica
      apply (Meets.seq follows_requestNode fun _ ↦ Meets.throwIf.imp fun _ _ ↦ trivial).settle.bind
      intro rollback _
      cases rollback <;> trivial
    exact (Meets.onlyIf fun _ ↦ Meets.forEach fun _ _ ↦ hrollBack _ _).seq fun _ ↦ Meets.throw
  · trivial

theorem applyReconfigure_follows {app : MasterApp} :
    KeepsTo m (applyReconfigure deps m.workspaceId command app) := by
  apply follows_checkResize.seq
  intro nodes
  apply follows_platformEnvVarsV3.seq
  intro platformEnvVars
  apply Meets.seq (Meets.foldEach (R := fun _ ↦ True)
    (fun _ _ _ _ ↦ reconfigureReplica_follows) trivial)
  intro done
  apply follows_now.seq
  intro appliedAt
  refine Meets.seq (follows_amendIf fun _ ↦ ⟨rfl, rfl, rfl, rfl⟩) fun persisted ↦ ?_
  apply Meets.throwIf.bind
  intro _ _
  apply follows_lookUp.seq
  intro reconfigured
  split
  · trivial
  · have hevent : ∀ resources : ContainerResources, KeepsTo m (do
        let eventId ← randomUUID
        LifecycleEvents.insertOne
          { eventId, workspaceId := m.workspaceId, appId := app.appId, type := .resized, resources,
            time := appliedAt }) :=
      fun _ ↦ follows_randomUUID.seq fun _ ↦ follows_lifecycleEvents
    exact (Meets.forSome fun _ _ ↦ hevent _).seq fun _ ↦ trivial

theorem reconfigureMcpV3_follows : KeepsTo m (reconfigureMcpV3 deps m.workspaceId command) := by
  apply follows_withWorkspaceLock
  apply follows_findInstallation.seq
  intro found
  cases found with
  | none => trivial
  | some app =>
    apply Meets.throwIf.bind
    intro _ _
    apply Meets.throwIf.bind
    intro _ _
    apply Meets.throwIf.bind
    intro _ _
    split
    · exact follows_ofExcept
    · exact applyReconfigure_follows

theorem swapForward_follows {replicas : List AppReplica} {succeeded : List Swapped} :
    KeepsTo m (swapForward swap succeeded replicas) := by
  induction replicas generalizing succeeded with
  | nil => trivial
  | cons replica rest ih =>
    have hrequest : KeepsTo m (requestRedeploy swap replica
        swap.command.targetImageDigest swap.command.targetManifestDigest) := follows_requestNode
    apply hrequest.settle.bind
    intro outcome _
    cases outcome with
    | error error => trivial
    | ok response =>
      dsimp only
      split
      · trivial
      · split
        · trivial
        · exact ih

theorem persistUpgrade_follows {swapStrategy : SwapStrategy}
    (hworkspace : swap.workspaceId = m.workspaceId) :
    KeepsTo m (persistUpgrade swap swapStrategy) := by
  unfold persistUpgrade
  rw [hworkspace]
  apply follows_now.seq
  intro appliedAt
  refine Meets.seq (follows_amendIf fun _ ↦ ⟨rfl, rfl, rfl, rfl⟩) fun persisted ↦ ?_
  split
  · trivial
  · exact follows_lookUp.seq fun _ ↦ trivial

theorem performSwap_follows (hworkspace : swap.workspaceId = m.workspaceId) :
    KeepsTo m (performSwap swap) := by
  apply swapForward_follows.seq
  intro forward
  have hconclude : KeepsTo m (concludeSwap swap forward) := by
    unfold concludeSwap
    split
    · trivial
    · split
      · trivial
      · apply (persistUpgrade_follows hworkspace).settle.bind
        intro persisted _
        split <;> trivial
  apply hconclude.seq
  intro conclusion
  cases conclusion with
  | ok upgraded => trivial
  | error failure =>
    have hrevert : ∀ entry ∈ forward.succeeded, KeepsTo m
        (revertReplica swap entry) := by
      intro entry _
      have hrequest : KeepsTo m (requestRedeploy swap entry.replica
          swap.command.previousImageDigest swap.command.previousManifestDigest) :=
        follows_requestNode
      apply hrequest.settle.bind
      intro outcome _
      cases outcome <;> trivial
    exact (Meets.mapEach hrevert).bind fun _ _ ↦ Meets.throw

theorem upgradeMcpV3_follows {command : ClusterUpgradeCommandPayloadV3} :
    KeepsTo m (upgradeMcpV3 deps m.workspaceId command) := by
  apply follows_withWorkspaceLock
  apply follows_findInstallation.seq
  intro found
  cases found with
  | none => trivial
  | some app =>
    apply Meets.throwIf.bind
    intro _ _
    apply Meets.throwIf.bind
    intro _ _
    apply Meets.throwIf.bind
    intro _ _
    split
    · exact follows_ofExcept
    · apply Meets.throwIf.bind
      intro _ _
      apply Meets.throwIf.bind
      intro _ _
      apply follows_loadReplicaNodes.seq
      intro nodes
      apply follows_ofExcept.seq
      intro envVars
      apply follows_platformEnvVarsV3.seq
      intro platformEnvVars
      exact performSwap_follows rfl

end RuntimeSwap

end PrivosCluster
