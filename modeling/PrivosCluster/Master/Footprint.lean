import PrivosCluster.Master.AppLifecycleSpec
import PrivosCluster.Master.Reconcile

/-!
# Footprints

A footprint lists the calls an operation can make, with what it has read by then. Each is
stated for an arbitrary discipline, which has to let those calls through: an invariant of the
records, a frame, or a condition that several threads must not end.
-/

namespace PrivosCluster

open AsyncProgram DocumentStore List

/-- What is known of the documents that a read hands out. -/
structure Known where
  app : MasterApp → Prop
  node : MasterNode → Prop
  workspace : MasterWorkspace → Prop

/-- The discipline lets the call through, and its answer satisfies `Q`. -/
def Allows (law : Law) (D : Discipline signature World) (c : Call) (Q : c.Answer → Prop) : Prop :=
  ∀ x w, D.assumes c w → law c x w →
    D.ensures w (respond c x w).2 ∧ ∀ a, (respond c x w).1 = .ok a → Q a

/-- The call reads documents, asks a service or takes part in a lock, and writes nothing. -/
def Call.IsPlain : Call → Prop
  | .apps op => op.IsRead
  | .nodes op => op.IsRead
  | .workspaces op => op.IsRead
  | .runtimeResourceInventories op => op.IsRead
  | .lifecycleEvents op => op.IsRead
  | .request _ => False
  | _ => True

variable {c : Call} {Q : c.Answer → Prop} {α : Type} {P : α → Prop} {p : Async α} {nodeId : String}
  {filter : MasterApp → Bool} {update : Time → MasterApp → MasterApp} {replicas : List AppReplica}
  {tolerant : Bool} {command : AppReplica → AgentRequest} {action : WorkspacePower}

theorem Call.IsPlain.isQuiet (hc : c.IsPlain) : c.IsQuiet := by
  cases c <;> first | exact hc | trivial

def AllowsPlain (law : Law) (D : Discipline signature World) : Prop :=
  ∀ c : Call, c.IsPlain → Allows law D c fun _ ↦ True

/-- Reads are let through, and hand out documents of which something is known. -/
structure Reads (law : Law) (D : Discipline signature World) (K : Known) : Prop where
  quiet : ∀ c : Call, c.IsQuiet → Allows law D c fun _ ↦ True
  app : ∀ filter, Allows law D (.apps (.findOne filter)) fun found ↦
    ∀ app, found = some app → filter app = true ∧ K.app app
  apps : ∀ filter, Allows law D (.apps (.find filter)) fun found ↦
    ∀ app ∈ found, filter app = true ∧ K.app app
  nodes : ∀ filter, Allows law D (.nodes (.find filter)) fun found ↦
    ∀ node ∈ found, filter node = true ∧ K.node node
  workspaces : ∀ filter, Allows law D (.workspaces (.find filter)) fun found ↦
    ∀ workspace ∈ found, filter workspace = true ∧ K.workspace workspace

variable {β : Type} {q : Async β} {time : Time}

section Rules

variable {law : Law} {D : Discipline signature World} {K : Known}

theorem Reads.of (hquiet : ∀ c w w', D.assumes c w → Quiet w w' → D.ensures w w')
    (happs : ∀ op w, D.assumes (.apps op) w → ∀ app ∈ w.apps.docs, K.app app)
    (hnodes : ∀ op w, D.assumes (.nodes op) w → ∀ node ∈ w.nodes.docs, K.node node)
    (hworkspaces : ∀ op w, D.assumes (.workspaces op) w →
      ∀ workspace ∈ w.workspaces.docs, K.workspace workspace) :
    Reads law D K where
  quiet c hc x w hw _ := ⟨hquiet c _ _ hw (respond_quiet hc x w), fun _ _ ↦ trivial⟩
  app filter x w hw _ := by
    refine ⟨hquiet _ _ _ hw (respond_quiet (c := .apps (.findOne filter)) trivial x w), ?_⟩
    intro found hfound app happ
    simp only [respond, serveStore_findOne] at hfound
    split at hfound
    · rw [happ] at hfound
      injection hfound with hfound
      exact ⟨find?_some hfound, happs _ _ hw app (mem_of_find?_eq_some hfound)⟩
    · cases hfound
  apps filter x w hw _ := by
    refine ⟨hquiet _ _ _ hw (respond_quiet (c := .apps (.find filter)) trivial x w), ?_⟩
    intro found hfound app happ
    simp only [respond, serveStore_find] at hfound
    split at hfound
    · injection hfound with hfound
      rw [← hfound] at happ
      exact ⟨(mem_filter.mp happ).2, happs _ _ hw app (mem_filter.mp happ).1⟩
    · cases hfound
  nodes filter x w hw _ := by
    refine ⟨hquiet _ _ _ hw (respond_quiet (c := .nodes (.find filter)) trivial x w), ?_⟩
    intro found hfound node hnode
    simp only [respond, serveStore_find] at hfound
    split at hfound
    · injection hfound with hfound
      rw [← hfound] at hnode
      exact ⟨(mem_filter.mp hnode).2, hnodes _ _ hw node (mem_filter.mp hnode).1⟩
    · cases hfound
  workspaces filter x w hw _ := by
    refine ⟨hquiet _ _ _ hw (respond_quiet (c := .workspaces (.find filter)) trivial x w), ?_⟩
    intro found hfound workspace hworkspace
    simp only [respond, serveStore_find] at hfound
    split at hfound
    · injection hfound with hfound
      rw [← hfound] at hworkspace
      exact ⟨(mem_filter.mp hworkspace).2,
        hworkspaces _ _ hw workspace (mem_filter.mp hworkspace).1⟩
    · cases hfound

/-- A program that keeps to a discipline whatever it answers. -/
abbrev Obeys (law : Law) (D : Discipline signature World) {α : Type} (p : Async α) : Prop :=
  Meets (cluster law) D (fun _ ↦ True) p

theorem Allows.await (h : Allows law D c Q) : Meets (cluster law) D Q (awaitCall c) :=
  Meets.ask h

theorem Allows.trivial (h : Allows law D c Q) : Obeys law D (awaitCall c) :=
  h.await.imp fun _ _ ↦ True.intro

theorem Reads.plain (reads : Reads law D K) : AllowsPlain law D :=
  fun c hc ↦ reads.quiet c hc.isQuiet

theorem meets_quiet (reads : Reads law D K) (hc : c.IsQuiet) : Obeys law D (awaitCall c) :=
  (reads.quiet c hc).await

variable (plain : AllowsPlain law D)
include plain

theorem meets_plain (hc : c.IsPlain) : Obeys law D (awaitCall c) := (plain c hc).await

theorem meets_arrivalOrder (n : Nat) : Obeys law D (arrivalOrder n) :=
  meets_plain plain (c := .service (.arrivalOrder n)) trivial

theorem meets_now : Obeys law D now := meets_plain plain (c := .service .now) trivial

theorem meets_randomUUID : Obeys law D randomUUID :=
  meets_plain plain (c := .service .randomUUID) trivial

theorem meets_promiseAll {Q : α → Prop} {tasks : List (Async α)}
    (h : ∀ p ∈ tasks, Meets (cluster law) D Q p) :
    Meets (cluster law) D (fun results ↦ ∀ a ∈ results, Q a) (promiseAll tasks) := by
  refine Meets.seq (meets_arrivalOrder plain _) fun order ↦ ?_
  refine (Meets.settleInOrder h).bind fun settled hsettled ↦ ?_
  split
  · exact trivial
  · intro a ha
    obtain ⟨i, -, hi⟩ := mem_filterMap.mp ha
    obtain ⟨r, hr, hra⟩ := Option.bind_eq_some_iff.mp hi
    refine hsettled r (mem_of_find?_eq_some hr) a ?_
    cases hr2 : r.2 with
    | ok b => simpa [hr2, Except.toOption] using hra
    | error e => simp [hr2, Except.toOption] at hra

omit plain in
theorem meets_inTurn {Q : β → Prop} (hp : Meets (cluster law) D P p)
    (hq : Meets (cluster law) D Q q) :
    Meets (cluster law) D (fun r ↦ P r.1 ∧ Q r.2) (inTurn p q) := by
  refine hp.settle.bind fun a ha ↦ hq.settle.bind fun b hb ↦ ?_
  exact (Meets.ofExcept ha).bind fun a ha ↦ (Meets.ofExcept hb).bind fun b hb ↦ ⟨ha, hb⟩

theorem meets_promiseBoth {Q : β → Prop} (hp : Meets (cluster law) D P p)
    (hq : Meets (cluster law) D Q q) :
    Meets (cluster law) D (fun r ↦ P r.1 ∧ Q r.2) (promiseBoth p q) := by
  refine Meets.seq (meets_arrivalOrder plain _) fun order ↦ ?_
  split
  · exact meets_inTurn hp hq
  · exact (meets_inTurn hq hp).bind fun r hr ↦ ⟨hr.2, hr.1⟩

theorem meets_withWorkspaceLock {Q : α → Prop} {workspaceId : String}
    (hp : Meets (cluster law) D Q p) : Meets (cluster law) D Q (withWorkspaceLock workspaceId p) :=
  Meets.seq (meets_plain plain (c := .acquire workspaceId) trivial) fun _ ↦
    hp.finallyDo (meets_plain plain (c := .release workspaceId) trivial)

omit plain in
theorem meets_requestNode {nodes : List MasterNode} {workspaceId : String} {body : AgentRequest}
    (h : ∀ node ∈ nodes, node.nodeId = nodeId →
      Allows law D (.request ⟨nodeId, workspaceId, body⟩) fun _ ↦ True) :
    Obeys law D (requestNode (AppLifecycle.nodeOf nodes nodeId) workspaceId body) := by
  cases hnode : AppLifecycle.nodeOf nodes nodeId with
  | none => exact trivial
  | some node =>
    have hid := AppLifecycle.nodeId_of_nodeOf hnode
    subst hid
    exact (h node (mem_of_find?_eq_some hnode) rfl).await

end Rules

/-! ## The lifecycle operations -/

section Lifecycle

variable {law : Law} {D : Discipline signature World} {K : Known} {deps : LifecycleDeps}
  {workspaceId appId : String}

/-- The requests an operation sends to the replicas of an app on nodes it has loaded. -/
def AllowsCommands (law : Law) (D : Discipline signature World) (K : Known) (workspaceId : String)
    (app : MasterApp) (command : AppReplica → AgentRequest) : Prop :=
  ∀ replica ∈ app.replicas, ∀ node, K.node node → node.nodeId = replica.nodeId →
    Allows law D (.request ⟨replica.nodeId, workspaceId, command replica⟩) fun _ ↦ True

/-- The write of one operation at any time is let through. -/
def AllowsUpdate (law : Law) (D : Discipline signature World) (filter : MasterApp → Bool)
    (update : Time → MasterApp → MasterApp) : Prop :=
  ∀ time, Allows law D (.apps (.updateOne filter (update time))) fun _ ↦ True

/-- An invariant that the write keeps, whether it takes effect or not, lets it through. -/
theorem allowsUpdate_keep {I : World → Prop}
    (h : ∀ time w (apps : Collection MasterApp appKeys), I w →
      apps.docs = updateFirst filter (update time) w.apps.docs → I { w with apps })
    (hsame : ∀ w (apps : Collection MasterApp appKeys), I w → apps.docs = w.apps.docs →
      I { w with apps }) : AllowsUpdate law (.keep I) filter update := by
  intro time x w hw _
  refine ⟨?_, fun _ _ ↦ trivial⟩
  obtain hdocs | hdocs := docs_serveStore_updateOne filter (update time) x w.apps
  · exact hsame w _ hw hdocs
  · exact h time w _ hw hdocs

/-- A claim of which nothing has to be known. -/
theorem AllowsUpdate.claims (h : AllowsUpdate law D filter update) (time : Time) :
    Allows law D (.apps (.updateOne filter (update time))) fun result ↦
      result.modifiedCount = 1 → True :=
  fun x w hw hx ↦ ⟨(h time x w hw hx).1, fun _ _ _ ↦ trivial⟩

/-- What the teardown of one app has to be let through. -/
structure AllowsDestroy (law : Law) (D : Discipline signature World) (K : Known)
    (workspaceId appId : String) (app : MasterApp) : Prop where
  sends : AllowsCommands law D K workspaceId app fun replica ↦ .remove replica.containerId
  removing : AllowsUpdate law D (AppLifecycle.byId workspaceId appId) AppLifecycle.removingAs
  removed : AllowsUpdate law D (AppLifecycle.byId workspaceId appId) AppLifecycle.removedAs

/-- What the reaper has to be let through for one app. A claim that succeeds may tell something. -/
structure AllowsReap (law : Law) (D : Discipline signature World) (K : Known) (Claimed : Prop)
    (workspaceId appId : String) : Prop where
  claims : ∀ time, Allows law D (.apps (.updateOne
      (fun app ↦ AppLifecycle.byId workspaceId appId app && app.state == .quarantined)
      (AppLifecycle.removingAs time)))
    fun result ↦ result.modifiedCount = 1 → Claimed
  destroys : Claimed → ∀ app, K.app app → AppLifecycle.byId workspaceId appId app = true →
    AllowsDestroy law D K workspaceId appId app

namespace AppLifecycle

/-- An app as `load` hands it out. -/
structure Loaded (K : Known) (workspaceId appId : String) (app : MasterApp) : Prop where
  known : K.app app
  byId : byId workspaceId appId app = true
  live : app.state ≠ .removed

section

variable (reads : Reads law D K)
include reads

theorem meets_load :
    Meets (cluster law) D (Loaded K workspaceId appId) (load workspaceId appId) := by
  refine Meets.bind (reads.app _).await fun found hfound ↦ ?_
  cases found with
  | none => exact trivial
  | some app =>
    obtain ⟨hfilter, hknown⟩ := hfound app rfl
    simp only [Bool.and_eq_true, bne_iff_ne, ne_eq] at hfilter
    exact ⟨hknown, hfilter.1, hfilter.2⟩

theorem meets_loadNodes {nodeIds : List String} :
    Meets (cluster law) D (fun nodes ↦ ∀ node ∈ nodes, K.node node) (loadNodes nodeIds) :=
  (reads.nodes _).await.imp fun _ h node hnode ↦ (h node hnode).2

theorem meets_get : Obeys law D (get workspaceId appId) := (meets_load reads).bind fun _ _ ↦ trivial

variable {app : MasterApp}

theorem meets_insertReplicaEvents {type : LifecycleEventType} {resources : ContainerResources}
    {storageBytes : Option Nat} :
    Obeys law D
      (insertReplicaEvents workspaceId app replicas type resources storageBytes time) := by
  refine Meets.bind (R := fun _ ↦ True) ?_ fun events _ ↦ meets_quiet reads trivial
  refine Meets.imp (Meets.mapEach (Q := fun _ ↦ True) fun replica _ ↦ ?_) fun _ _ ↦ trivial
  exact Meets.seq (meets_quiet reads (c := .service .randomUUID) trivial) fun eventId ↦ trivial

theorem meets_publish : Obeys law D (publish deps) := Meets.onlyIf fun _ ↦ meets_quiet reads trivial

omit reads in
theorem meets_assertResponses {responses : List AgentResponse} :
    Obeys law D (assertResponses responses tolerant) := by
  unfold assertResponses
  split <;> exact trivial

variable {nodes : List MasterNode}

/-- A batch of requests to all replicas, where a lost node rejects its request. -/
theorem meets_requestReplicas (hnodes : ∀ node ∈ nodes, K.node node)
    (h : AllowsCommands law D K workspaceId app command) :
    Obeys law D (promiseAll (app.replicas.map fun replica ↦
      requestNode (nodeOf nodes replica.nodeId) workspaceId (command replica))) := by
  refine (meets_promiseAll (Q := fun _ ↦ True) reads.plain fun p hp ↦ ?_).imp fun _ _ ↦ trivial
  obtain ⟨replica, hreplica, rfl⟩ := List.mem_map.mp hp
  exact meets_requestNode fun node hnode hid ↦ h replica hreplica node (hnodes node hnode) hid

omit reads in
/-- The tasks of a batch that leaves out the replicas whose node is lost. -/
theorem meets_of_mem_knownReplicas (wrap : Async AgentResponse → Async α)
    (hwrap : ∀ p, Obeys law D p → Obeys law D (wrap p)) (hnodes : ∀ node ∈ nodes, K.node node)
    (h : ∀ replica ∈ replicas, ∀ node, K.node node → node.nodeId = replica.nodeId →
      Allows law D (.request ⟨replica.nodeId, workspaceId, command replica⟩) fun _ ↦ True) :
    ∀ p ∈ replicas.filterMap fun replica ↦ (nodeOf nodes replica.nodeId).map fun node ↦
        wrap (request node workspaceId (command replica)),
      Obeys law D p := by
  intro p hp
  obtain ⟨replica, hreplica, hp⟩ := mem_filterMap.mp hp
  obtain ⟨node, hnode, rfl⟩ := Option.map_eq_some_iff.mp hp
  have hid := nodeId_of_nodeOf hnode
  have hallows := h replica hreplica node (hnodes node (mem_of_find?_eq_some hnode)) hid
  rw [← hid] at hallows
  exact hwrap _ hallows.await

theorem invoke_meets {action : PowerAction}
    (sends : ∀ app, Loaded K workspaceId appId app → app.kind ≠ some .mcpV3 →
      AllowsCommands law D K workspaceId app fun replica ↦ .power replica.containerId action)
    (writes : ∀ app, Loaded K workspaceId appId app → app.kind ≠ some .mcpV3 →
      AllowsUpdate law D (byId workspaceId appId)
        (poweredAs (if action = .stop then .stopped else .running))) :
    Obeys law D (invoke deps workspaceId appId action) := by
  refine (meets_load reads).bind fun app happ ↦ Meets.throwIf.bind fun _ hkind ↦ ?_
  refine (meets_loadNodes reads).bind fun nodes hnodes ↦ ?_
  refine (meets_requestReplicas reads hnodes (sends app happ hkind)).seq fun responses ↦ ?_
  refine meets_assertResponses.seq fun _ ↦ (meets_now reads.plain).seq fun time ↦ ?_
  refine Meets.seq (writes app happ hkind time).await fun _ ↦ ?_
  refine Meets.seq (Meets.onlyIf fun _ ↦ meets_insertReplicaEvents reads) fun _ ↦ ?_
  exact (meets_publish reads).seq fun _ ↦ meets_get reads

theorem setAppPower_meets (hnodes : ∀ node ∈ nodes, K.node node)
    (sends : AllowsCommands law D K workspaceId app fun replica ↦
      .power replica.containerId (if action = .suspend then .stop else .start))
    (writes : AllowsUpdate law D (byId workspaceId app.appId)
      (workspacePoweredAs (action = .suspend))) :
    Obeys law D (setAppPower workspaceId action nodes time app) := by
  have htasks := meets_of_mem_knownReplicas id (fun _ h ↦ h) hnodes sends
  refine Meets.seq ((meets_promiseAll reads.plain htasks).imp fun _ _ ↦ trivial) fun responses ↦ ?_
  refine meets_assertResponses.seq fun _ ↦ ?_
  exact Meets.seq (writes time).await fun _ ↦ meets_insertReplicaEvents reads

theorem meets_switchHosts {suspended : Bool} :
    Obeys law D (switchHosts deps workspaceId suspended) := by
  unfold switchHosts
  split
  · exact meets_quiet reads (c := .service (.setWorkspaceHostsSuspended _ _)) trivial
  · exact trivial

theorem setWorkspacePower_meets (sends : ∀ app, K.app app → powerSelector workspaceId action app →
      AllowsCommands law D K workspaceId app fun replica ↦
        .power replica.containerId (if action = .suspend then .stop else .start))
    (writes : ∀ app, K.app app → powerSelector workspaceId action app →
      AllowsUpdate law D (byId workspaceId app.appId) (workspacePoweredAs (action = .suspend))) :
    Obeys law D (setWorkspacePower deps workspaceId action) := by
  refine Meets.bind (reads.apps _).await fun apps happs ↦ ?_
  refine (meets_switchHosts reads).seq fun affectedHosts ↦ ?_
  split
  · exact Meets.seq (Meets.onlyIf fun _ ↦ meets_publish reads) fun _ ↦ trivial
  · refine (meets_loadNodes reads).bind fun nodes hnodes ↦ (meets_now reads.plain).seq fun time ↦ ?_
    refine Meets.seq (Meets.forEach fun app happ ↦ ?_) fun _ ↦
      (meets_publish reads).seq fun _ ↦ trivial
    obtain ⟨hselected, hknown⟩ := happs app happ
    exact setAppPower_meets reads hnodes (sends app hknown hselected) (writes app hknown hselected)

theorem redeploy_meets {input : RedeployInput}
    (sends : ∀ app, Loaded K workspaceId appId app → app.kind ≠ some .mcpV2 →
      app.kind ≠ some .mcpV3 → ∀ body,
      AllowsCommands law D K workspaceId app fun replica ↦ .redeploy replica.containerId body)
    (writes : ∀ app, Loaded K workspaceId appId app → app.kind ≠ some .mcpV2 →
      app.kind ≠ some .mcpV3 → ∀ image digest versionDigest resources,
      AllowsUpdate law D (byId workspaceId appId)
        (redeployedAs image digest versionDigest resources)) :
    Obeys law D (redeploy workspaceId appId input) := by
  refine (meets_load reads).bind fun app happ ↦ Meets.throwIf.bind fun _ hkind ↦ ?_
  rw [not_or] at hkind
  refine (meets_loadNodes reads).bind fun nodes hnodes ↦ ?_
  refine (meets_requestReplicas reads hnodes (sends app happ hkind.1 hkind.2 _)).seq
    fun responses ↦ ?_
  refine meets_assertResponses.seq fun _ ↦ (meets_now reads.plain).seq fun time ↦ ?_
  refine Meets.seq (writes app happ hkind.1 hkind.2 _ _ _ _ time).await fun _ ↦ ?_
  exact (meets_insertReplicaEvents reads).seq fun _ ↦ meets_get reads

theorem quarantine_meets (sends : app.state ≠ .quarantined →
      AllowsCommands law D K workspaceId app fun replica ↦ .power replica.containerId .stop)
    (writes : app.state ≠ .quarantined →
      AllowsUpdate law D (byId workspaceId appId) quarantinedAs) :
    Obeys law D (quarantine deps workspaceId appId app) := by
  unfold quarantine
  split
  · exact trivial
  next hstate =>
    refine (meets_loadNodes reads).bind fun nodes hnodes ↦ ?_
    have htasks := meets_of_mem_knownReplicas Program.settle
      (fun _ h ↦ h.settle.imp fun _ _ ↦ trivial) hnodes (sends hstate)
    refine Meets.seq ((meets_promiseAll reads.plain htasks).imp fun _ _ ↦ trivial) fun _ ↦ ?_
    refine (meets_now reads.plain).seq fun time ↦ Meets.seq (writes hstate time).await fun _ ↦ ?_
    exact (meets_insertReplicaEvents reads).seq fun _ ↦ meets_publish reads

theorem removeContainers_meets (hnodes : ∀ node ∈ nodes, K.node node)
    (sends : AllowsCommands law D K workspaceId app fun replica ↦ .remove replica.containerId) :
    Obeys law D (removeContainers workspaceId nodes app.replicas tolerant) := by
  have hdelete : ∀ replicas : List AppReplica, (∀ replica ∈ replicas, replica ∈ app.replicas) →
      Obeys law D (deleteReplicas workspaceId nodes replicas) := by
    intro replicas hreplicas
    have htasks := meets_of_mem_knownReplicas id (fun _ h ↦ h) hnodes
      fun replica hreplica ↦ sends replica (hreplicas replica hreplica)
    exact (meets_promiseAll reads.plain htasks).imp fun _ _ ↦ trivial
  unfold removeContainers
  split
  · exact hdelete _ fun _ h ↦ h
  · refine Meets.bind (hdelete _ fun _ h ↦ (takeWhile_sublist _).subset h).settle fun _ _ ↦ ?_
    exact Meets.throw

theorem destroy_meets (h : AllowsDestroy law D K workspaceId appId app) :
    Obeys law D (destroy deps workspaceId appId app tolerant) := by
  refine (meets_now reads.plain).seq fun startedAt ↦ ?_
  refine Meets.seq (h.removing startedAt).await fun _ ↦ ?_
  refine (meets_loadNodes reads).bind fun nodes hnodes ↦ ?_
  refine (removeContainers_meets reads hnodes h.sends).seq fun responses ↦ ?_
  refine meets_assertResponses.seq fun _ ↦ ?_
  refine Meets.seq (Meets.forSome fun _ _ ↦ meets_quiet reads trivial) fun _ ↦ ?_
  refine Meets.seq (Meets.onlyIf fun _ ↦ meets_quiet reads trivial) fun _ ↦ ?_
  refine (meets_now reads.plain).seq fun time ↦ Meets.seq (h.removed time).await fun _ ↦ ?_
  refine (meets_publish reads).seq fun _ ↦ (meets_insertReplicaEvents reads).seq fun _ ↦ ?_
  exact (meets_randomUUID reads.plain).seq fun eventId ↦ meets_quiet reads trivial

theorem remove_meets {workspaceRevoked : Bool}
    (revoked : workspaceRevoked → ∀ app, Loaded K workspaceId appId app →
      app.state ≠ .quarantined →
      AllowsCommands law D K workspaceId app (fun replica ↦ .power replica.containerId .stop) ∧
        AllowsUpdate law D (byId workspaceId appId) quarantinedAs)
    (explicit : workspaceRevoked = false → ∀ app, Loaded K workspaceId appId app →
      app.kind ≠ some .mcpV3 → AllowsDestroy law D K workspaceId appId app) :
    Obeys law D (remove deps workspaceId appId workspaceRevoked) := by
  refine (meets_load reads).bind fun app happ ↦ Meets.throwIf.bind fun _ hkind ↦ ?_
  cases workspaceRevoked with
  | true =>
    exact quarantine_meets reads (fun h ↦ (revoked rfl app happ h).1)
      fun h ↦ (revoked rfl app happ h).2
  | false =>
    have hkind' : app.kind ≠ some .mcpV3 := fun h ↦ hkind ⟨h, rfl⟩
    exact destroy_meets reads (explicit rfl app happ hkind')

/-- The part of a reap after its claim. -/
theorem meets_destroyClaimed
    (h : ∀ app, K.app app → byId workspaceId appId app →
      AllowsDestroy law D K workspaceId appId app) :
    Obeys law D (do
      match ← Apps.findOne (byId workspaceId appId) with
      | none => .pure ()
      | some app => destroy deps workspaceId appId app true) := by
  refine Meets.bind (reads.app _).await fun found hfound ↦ ?_
  cases found with
  | none => exact trivial
  | some app =>
    obtain ⟨hby, hknown⟩ := hfound app rfl
    exact destroy_meets reads (h app hknown hby)

theorem reapQuarantined_meets {Claimed : Prop} (h : AllowsReap law D K Claimed workspaceId appId) :
    Obeys law D (reapQuarantined deps workspaceId appId) := by
  refine (meets_now reads.plain).seq fun time ↦ Meets.bind (h.claims time).await fun claimed hclaimed ↦ ?_
  split
  · exact trivial
  next hcount => exact meets_destroyClaimed reads (h.destroys (hclaimed (not_not.mp hcount)))

theorem unquarantine_meets
    (claims : AllowsUpdate law D
      (fun app ↦ byId workspaceId appId app && app.state == .quarantined) releasedAs)
    (sends : ∀ app, K.app app → byId workspaceId appId app →
      AllowsCommands law D K workspaceId app fun replica ↦ .power replica.containerId .start) :
    Obeys law D (unquarantine deps workspaceId appId) := by
  refine (meets_now reads.plain).seq fun time ↦ Meets.seq (claims time).await fun claimed ↦ ?_
  split
  · exact trivial
  · refine Meets.bind (reads.app _).await fun found hfound ↦ ?_
    cases found with
    | none => exact trivial
    | some app =>
      obtain ⟨hby, hknown⟩ := hfound app rfl
      refine (meets_loadNodes reads).bind fun nodes hnodes ↦ ?_
      have htasks := meets_of_mem_knownReplicas id (fun _ h ↦ h) hnodes
        (sends app hknown hby)
      refine Meets.seq ((meets_promiseAll reads.plain htasks).imp fun _ _ ↦ trivial) fun _ ↦ ?_
      refine meets_assertResponses.seq fun _ ↦ (meets_now reads.plain).seq fun startedAt ↦ ?_
      refine (meets_insertReplicaEvents reads).seq fun _ ↦ ?_
      refine (meets_randomUUID reads.plain).seq fun eventId ↦ ?_
      exact Meets.seq (meets_quiet reads trivial) fun _ ↦ meets_publish reads

end

end AppLifecycle

namespace QuarantineReaper

theorem reapExpiredQuarantines_meets {graceMs : Int} {given : Option Time} {At : Time → Prop}
    (Claimed : String → Prop)
    (reads : Reads law D K) (times : Meets (cluster law) D At (given.elim now Program.pure))
    (h : ∀ app time, At time → K.app app → expired (time - graceMs) app →
      AllowsReap law D K (Claimed app.appId) app.workspaceId app.appId) :
    Obeys law D (reapExpiredQuarantines deps graceMs given) := by
  refine times.bind fun time htime ↦ Meets.bind (reads.apps _).await fun apps happs ↦ ?_
  refine Meets.foldEach (fun result app happ _ ↦ ?_) trivial
  obtain ⟨hexpired, hknown⟩ := happs app happ
  have hreap : Obeys law D (AppLifecycle.reapQuarantined deps app.workspaceId app.appId) :=
    AppLifecycle.reapQuarantined_meets reads (h app time htime hknown hexpired)
  exact Meets.tryCatch (hreap.seq fun _ ↦ trivial) fun _ ↦ trivial

end QuarantineReaper

/-! ## The reconcile pass -/

namespace Reconcile

open AppLifecycle

/-- What a pass has to be let through, for the containers that `listed` may report. -/
structure Allowed (law : Law) (D : Discipline signature World) (K : Known)
    (listed : String → String → Container → Prop) : Prop where
  lists : ∀ nodeId workspaceId, Allows law D (.request ⟨nodeId, workspaceId, .listApps⟩)
    fun response ↦ ¬ 300 ≤ response.status →
      ∀ container ∈ response.body.containers, listed nodeId workspaceId container
  stops : ∀ nodeId workspaceId container app, listed nodeId workspaceId container →
    K.app app → byId workspaceId (appIdOf container) app = true → app.state = .quarantined →
    container.state = .running →
    Allows law D (.request ⟨nodeId, workspaceId, .power container.id .stop⟩) fun _ ↦ True
  ooms : ∀ workspaceId appId,
    AllowsUpdate law D (byId workspaceId appId) oomKilledAs
  adopts : ∀ nodeId workspaceId container app replicaId, listed nodeId workspaceId container →
    K.app app → byId workspaceId (appIdOf container) app = true → app.state ≠ .quarantined →
    container.mcpV3 = false → app.kind ≠ some .mcpV3 →
    app.replicas.any (·.containerId == container.id) = false →
    AllowsUpdate law D (byId workspaceId (appIdOf container)) (adoptedAs nodeId replicaId container)
  inserts : ∀ baseDomain nodeId workspaceId container replicaId time,
    listed nodeId workspaceId container → container.mcpV3 = false →
    reconstructible container = true →
    Allows law D (.apps (.upsertOne (byId workspaceId (appIdOf container)) id
      (reconstruct baseDomain workspaceId nodeId replicaId container time))) fun _ ↦ True

section

variable {listed : String → String → Container → Prop} {baseDomain : String} {node : MasterNode}
  {container : Container}
variable (reads : Reads law D K)
include reads

theorem meets_seedLifecycle : Obeys law D (seedLifecycle workspaceId appId nodeId container) :=
  Meets.onlyIf fun _ ↦ Meets.seq (meets_quiet reads trivial) fun _ ↦ trivial

theorem reconcileContainer_meets (h : Allowed law D K listed)
    (hlisted : listed node.nodeId workspaceId container) :
    Obeys law D (reconcileContainer baseDomain workspaceId node container) := by
  refine Meets.bind (reads.app _).await fun found hfound ↦ ?_
  split
  next hquarantined =>
    -- a container of a quarantined app is only ever stopped
    cases found with
    | none => simp at hquarantined
    | some app =>
      have hstate : app.state = .quarantined := by simpa using hquarantined
      obtain ⟨hby, hknown⟩ := hfound app rfl
      refine Meets.seq (Meets.onlyIf fun hrunning ↦ ?_) fun _ ↦ trivial
      exact Meets.bind (h.stops _ _ _ app hlisted hknown hby hstate hrunning).await.settle
        fun _ _ ↦ trivial
  next hquarantined =>
    split
    · -- a v3 record only learns of an out-of-memory kill
      refine Meets.seq ?_ fun _ ↦ trivial
      unfold recordOom
      split
      · exact Meets.onlyIf fun _ ↦ Meets.seq (h.ooms _ _ _).await fun _ ↦ trivial
      · exact trivial
    next hv3 =>
      rw [not_or] at hv3
      have hmcpV3 : container.mcpV3 = false := by simpa using hv3.1
      cases found with
      | some app =>
        obtain ⟨hby, hknown⟩ := hfound app rfl
        have hstate : app.state ≠ .quarantined := by simpa using hquarantined
        have hkind : app.kind ≠ some .mcpV3 := by simpa using hv3.2
        dsimp only
        split
        · exact trivial
        next hnew =>
          refine Meets.seq ?_ fun _ ↦ trivial
          refine (meets_randomUUID reads.plain).seq fun replicaId ↦ (meets_now reads.plain).seq fun time ↦ ?_
          refine Meets.seq (h.adopts _ _ _ app replicaId hlisted hknown hby hstate hmcpV3 hkind
            (by simpa using hnew) time).await fun _ ↦ ?_
          exact meets_seedLifecycle reads
      | none =>
        dsimp only
        split
        · exact trivial
        next hlabels =>
          refine Meets.seq ?_ fun _ ↦ trivial
          refine (meets_now reads.plain).seq fun time ↦ (meets_randomUUID reads.plain).seq fun replicaId ↦ ?_
          refine Meets.seq (h.inserts _ _ _ _ _ _ hlisted hmcpV3 (by simpa using hlabels)).await
            fun _ ↦ ?_
          exact meets_seedLifecycle reads

theorem reconcileListing_meets (h : Allowed law D K listed) {containers : List Container}
    (hlisted : ∀ container ∈ containers, listed node.nodeId workspaceId container)
    {counts : Counts} :
    Obeys law D (reconcileListing baseDomain workspaceId node counts containers) := by
  induction containers generalizing counts with
  | nil => exact trivial
  | cons container rest ih =>
    have hfirst : Obeys law D (reconcileContainer baseDomain workspaceId node container) :=
      reconcileContainer_meets reads h (hlisted container (by simp))
    refine hfirst.settle.bind fun outcome _ ↦ ?_
    cases outcome with
    | error e => exact trivial
    | ok repaired => exact ih fun container hc ↦ hlisted container (mem_cons_of_mem _ hc)

theorem run_meets (h : Allowed law D K listed) : Obeys law D (run baseDomain) := by
  refine Meets.seq ((meets_promiseBoth reads.plain (reads.workspaces _).await
    (reads.nodes _).await).imp fun _ _ ↦ trivial) fun found ↦ ?_
  refine Meets.foldEach (fun counts workspace _ _ ↦ ?_) trivial
  refine Meets.foldEach (fun counts node _ _ ↦ ?_) trivial
  refine (h.lists node.nodeId workspace.workspaceId).await.settle.bind fun outcome houtcome ↦ ?_
  cases outcome with
  | error e => exact trivial
  | ok response =>
    dsimp only
    split
    · exact trivial
    next hstatus => exact reconcileListing_meets reads h (houtcome response rfl hstatus)

end

end Reconcile

end Lifecycle

end PrivosCluster
