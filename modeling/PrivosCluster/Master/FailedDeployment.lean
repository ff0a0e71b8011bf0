import PrivosCluster.Master.Compensation
import PrivosCluster.Master.UpgradeRollback

/-!
# What a failed deployment leaves behind

The deployments of raw and v2 apps and the change of the availability tier, with the containers
that stay behind when they throw.
-/

namespace PrivosCluster

open AsyncProgram DocumentStore RuntimeSwap List AppLifecycle

variable {subdomain deploymentGrantHash : String} {w₀ : World} {input : DeployInput}
  {grant : McpDeploymentGrantPayload} {hubIdentity : HubIdentity} {compensates : Bool}
  {node : MasterNode} {replica : AppReplica} {availabilityTier : AvailabilityTier}

namespace Deployment

variable {deps : DeploymentDeps} {workspaceId : String} {w : World}

/-! ## Deployments -/

theorem asks_allocateSubdomain {listingId : String} :
    Asks Incidental (allocateSubdomain listingId workspaceId) := by
  have hcall : Incidental (.service (.allocateSubdomain listingId workspaceId)) :=
    ⟨trivial, nofun⟩
  exact Asks.ask hcall

variable {nodes : List MasterNode}

theorem traces_ingressUpsert {law : Law} :
    Traces (cluster law) (fun r w' calls ↦ Quiet w w' ∧ ∃ x,
      calls = [(.service (.ingressUpsert subdomain (nodes.map (·.nodeId))), x)] ∧
        (r.isOk ↔ x.fault = .none)) (ingressUpsert subdomain nodes) w := by
  apply traces_awaitCall (.service (.ingressUpsert subdomain (nodes.map (·.nodeId))))
  intro x _
  refine ⟨respond_quiet (c := .service (.ingressUpsert _ _)) trivial x w, x, rfl, ?_⟩
  cases hfault : x.fault <;> simp [respond, Service.Fallible, hfault, Except.isOk, Except.toBool]

variable {calls : List (Call × Choice)} {appId : String}

/-- The ingress is programmed when no replica failed. -/
theorem traces_ingress {replicas : List AppReplica} {lost : List (String × String)}
    {failure : Option JsError}
    (h : Staged deps true workspaceId appId nodes w₀ replicas lost w calls) :
    Traces (cluster agentsReport) (fun r w' calls' ↦ (r.isOk → failure = none) ∧
      Staged deps true workspaceId appId nodes w₀ replicas lost w' (calls ++ calls'))
      (failure.elim (ingressUpsert subdomain nodes) .throw) w := by
  cases failure with
  | some e =>
    refine ⟨(fun hok ↦ nomatch hok), ?_⟩
    rwa [append_nil]
  | none =>
    apply traces_ingressUpsert.imp
    intro r w' calls' hingress
    obtain ⟨hquiet, x, rfl, -⟩ := hingress
    refine ⟨fun _ ↦ rfl, h.frame hquiet.apps hquiet.containers rfl ?_⟩
    intro event hevent
    obtain rfl := mem_singleton.mp hevent
    exact fun hlost ↦ nomatch hlost.1

theorem deployToNodes_balanced :
    Traces (cluster agentsReport) (fun _ w' calls ↦ Balanced deps true w w' calls)
      (deployToNodes deps workspaceId input nodes) w := by
  have hid : Asks Incidental (input.appId.elim randomUUID .pure) := by
    cases input.appId with
    | none => exact asks_randomUUID
    | some appId => trivial
  apply traces_balanced_bind hid
  intro appId w₁ _
  apply traces_balanced_bind asks_allocateSubdomain
  intro subdomain w₂ _
  apply (collectReplicas_traces (fun node _ w calls h ↦ deployReplica_traces h) (Staged.nil w₂)).bind
  · intro found w₃ first hfirst
    obtain ⟨replicas, failure, lost, hfound, hlost, hstaged⟩ := hfirst
    obtain rfl := Except.ok.inj hfound
    apply Traces.bind (Traces.settle (Q := fun r w' calls' ↦ ∃ outcome, r = .ok outcome ∧
      (outcome.isOk → failure = none) ∧
      Staged deps true workspaceId appId nodes w₂ replicas lost w' (first ++ calls')) ?_)
    · intro outcome w₄ middle hmiddle
      obtain ⟨_, ⟨⟩, hok, hstaged⟩ := hmiddle
      simp only [← append_assoc]
      cases outcome with
      | error e =>
        apply hstaged.undone.bind
        · intro _ w₅ last hbalanced
          apply Traces.throw
          rwa [append_nil]
        · intro _ w₅ last hbalanced
          exact hbalanced
      | ok u =>
        obtain rfl := hlost (hok rfl)
        apply traces_service (s := .now) rfl
        intro time w₅ middle' hmiddle'
        simp only [← append_assoc]
        apply (hstaged.passes hmiddle').recorded rfl rfl
        intro u
        exact asks_insertReplicaEvents.bind fun _ ↦ asks_recordAppInstalledEvent.bind fun _ ↦ trivial
    · intro e w₄ middle hmiddle
      obtain ⟨_, hmiddle, -⟩ := hmiddle
      cases hmiddle
    · apply (traces_ingress hstaged).imp
      intro r w' calls' hr
      exact ⟨r, rfl, hr⟩
  · intro e w₃ first hfirst
    obtain ⟨_, _, _, hfirst, -⟩ := hfirst
    cases hfirst

theorem deploy_balanced {raw : RawDeploy} :
    Traces (cluster agentsReport) (fun _ w' calls ↦ Balanced deps true w w' calls)
      (deploy deps workspaceId raw) w := by
  apply Traces.ofExcept_bind
  · intro e _
    exact balanced_of_nothing rfl
  intro input _
  apply traces_balanced_lock
  intro w₁ _
  have hfind : Asks Incidental (findDeployed workspaceId input) := by
    unfold findDeployed
    cases input.appId with
    | none => trivial
    | some appId => exact asks_findOneApp
  apply traces_balanced_bind hfind
  intro existing w₂ _
  cases existing with
  | some existing => exact balanced_of_nothing rfl
  | none =>
    apply traces_balanced_bind asks_place
    intro selected w₃ _
    exact deployToNodes_balanced

theorem deployMcpToNodes_balanced :
    Traces (cluster agentsReport) (fun _ w' calls ↦ Balanced deps true w w' calls)
      (deployMcpToNodes deps workspaceId input grant deploymentGrantHash hubIdentity nodes) w := by
  have hlabel : Asks Incidental (grant.deployment.subdomain.elim
      (allocateSubdomain input.listingId workspaceId) .pure) := by
    cases grant.deployment.subdomain with
    | none => exact asks_allocateSubdomain
    | some subdomain => trivial
  apply traces_balanced_bind hlabel
  intro subdomain w₁ _
  apply (collectReplicas_traces (fun node _ w calls h ↦ deployMcpReplica_traces h)
    (Staged.nil w₁)).bind
  · intro found w₂ first hfirst
    obtain ⟨replicas, failure, lost, hfound, hlost, hstaged⟩ := hfirst
    obtain rfl := Except.ok.inj hfound
    cases failure with
    | some e =>
      apply hstaged.undone.bind
      · intro _ w₃ last hbalanced
        apply Traces.throw
        rwa [append_nil]
      · intro _ w₃ last hbalanced
        exact hbalanced
    | none =>
      obtain rfl := hlost rfl
      apply traces_service (s := .now) rfl
      intro time w₃ middle hmiddle
      simp only [← append_assoc]
      apply (hstaged.passes hmiddle).recorded rfl rfl
      intro u
      exact asks_insertReplicaEvents.bind fun _ ↦ trivial
  · intro e w₂ first hfirst
    obtain ⟨_, _, _, hfirst, -⟩ := hfirst
    cases hfirst

theorem deployMcp_balanced :
    Traces (cluster agentsReport) (fun _ w' calls ↦ Balanced deps true w w' calls)
      (deployMcp deps workspaceId grant deploymentGrantHash hubIdentity) w := by
  apply Traces.ofExcept_bind
  · intro e _
    exact balanced_of_nothing rfl
  intro input _
  apply traces_balanced_lock
  intro w₁ _
  apply traces_balanced_bind asks_findOneApp
  intro existing w₂ _
  cases existing with
  | some existing =>
    apply Traces.guard
    · intro _
      exact balanced_of_nothing rfl
    · intro _
      exact balanced_of_nothing rfl
  | none =>
    apply traces_balanced_bind asks_place
    intro selected w₃ _
    exact deployMcpToNodes_balanced

/-! ## The availability tier -/

variable {app : MasterApp}

/-- The second replica is one more replica of a raw app. -/
theorem raiseTier_eq_newReplica :
    raiseTier deps workspaceId appId app = (do
      Program.throwIf (app.stateless = false) statefulHa
      Quota.assertAdditionalReplicaAllowed workspaceId app.resources
      let (nodes, runningApps) ← loadFleet
      let node ← Program.ofExcept (selectSecondNode nodes runningApps app)
      let replica ← newReplica workspaceId node (secondReplicaBody deps workspaceId app)
      let time ← now
      ingressUpsert (app.subdomain.getD "undefined")
        (nodes.filter (fun node ↦ (app.replicas.map (·.nodeId)).contains node.nodeId) ++ [node])
      let _ ← Apps.updateOne (AppLifecycle.byId workspaceId appId) (raisedAs replica time)
      let eventId ← randomUUID
      LifecycleEvents.insertOne
        { eventId, workspaceId, appId, replicaId := some replica.replicaId, type := .started,
          resources := app.resources, time }
      tierEvent workspaceId app (app.replicas.length + 1) time) := by
  simp only [raiseTier, newReplica, Program.bind_assoc, Program.pure_bind]


theorem Staged.single (h : Made workspaceId appId w₀ w calls)
    (hreplicated : Replicated deps compensates w₀ node (.ok replica) calls) :
    Staged deps compensates workspaceId appId [node] w₀ [replica] [] w calls where
  made := h
  known := by simp [nodeOf, hreplicated.1]
  places := by simp [hreplicated.2.1]
  loses := by simpa using hreplicated.2.2

/-- A replica that was not made lost what it made, and no record names it. -/
theorem Made.balanced_of_failed {e : JsError} (h : Made workspaceId appId w₀ w calls)
    (hreplicated : Replicated deps compensates w₀ node (.error e) calls) :
    Balanced deps compensates w₀ w calls := by
  by_cases hcreated : created calls = []
  · exact balanced_of_nothing hcreated
  · exact h.balanced_of_lost (hreplicated.mpr hcreated)

theorem asks_assertAdditionalReplicaAllowed {resources : ContainerResources} :
    Asks Incidental (Quota.assertAdditionalReplicaAllowed workspaceId resources) :=
  asks_installedApps.bind fun _ ↦ asks_assertWithin

/-- The record of the second replica, when its write is not refused. -/
theorem Staged.raised {time : Time} {α : Type} {rest : UpdateResult → Async α}
    (h : Staged deps false workspaceId appId nodes w₀ [replica] [] w calls)
    (hstored : w₀.app appId = some app) (hworkspace : app.workspaceId = workspaceId)
    (hrest : ∀ answer, Asks Incidental (rest answer)) :
    Traces (cluster agentsReport) (fun _ w' calls' ↦ Balanced deps false w₀ w' (calls ++ calls'))
      (Apps.updateOne (AppLifecycle.byId workspaceId appId) (raisedAs replica time) >>= rest) w := by
  apply traces_then (c := .apps (.updateOne _ _)) hrest
  intro x _ w₂ last hquiet hlast
  have hkeys : ∀ app, AppLifecycle.byId workspaceId appId app →
      appKeys (raisedAs replica time app) = appKeys app := fun _ _ ↦ rfl
  obtain ⟨apps, hdocs, hserve⟩ := serveStore_updateOne (c := w.apps) (x := x) hkeys
  have happs := hquiet.apps
  simp only [respond, hserve] at happs
  have hcontainers : w₂.containers = w.containers := hquiet.containers
  have hnothing : created ((.apps (.updateOne (AppLifecycle.byId workspaceId appId)
      (raisedAs replica time)), x) :: last) = [] := by
    rw [← created_of_incidental hlast]
    rfl
  by_cases hrefused : x.fault = .refused
  · rw [if_pos hrefused] at happs
    apply (h.made.frame happs hcontainers hnothing).balanced_of_lost
    exact ⟨_, mem_append_right _ mem_cons_self, hrefused⟩
  · rw [if_neg hrefused] at happs
    have hby : AppLifecycle.byId workspaceId appId app :=
      byId_iff.mpr ⟨(World.app_eq_some.mp hstored).2, hworkspace⟩
    have hnow : w₂.app appId = some (raisedAs replica time app) := by
      have hupdated := World.app_of_updateFirst hdocs
        (fun app h ↦ (byId_iff.mp h).1) (fun _ ↦ rfl) appId
      have hbefore : w.app appId = some app := by
        rw [World.app, h.made.apps]
        exact hstored
      rw [hbefore, Option.map_some, if_pos hby] at hupdated
      rw [World.app, happs]
      exact hupdated
    apply h.made.balanced_of_named hnow _ hcontainers hnothing
    · intro event hevent
      simp only [mem_append, mem_cons] at hevent
      obtain hevent | rfl | hevent := hevent
      · exact h.keeps event hevent
      · exact hrefused
      · exact not_loses_of_incidental (hlast event hevent)
    · intro place hplace
      rw [h.places, append_nil, map_singleton, mem_singleton] at hplace
      subst hplace
      exact ⟨replica, by simp [raisedAs], rfl, rfl⟩

theorem raiseTier_balanced (hstored : w.app appId = some app)
    (hworkspace : app.workspaceId = workspaceId) :
    Traces (cluster agentsReport) (fun _ w' calls ↦ Balanced deps false w w' calls)
      (raiseTier deps workspaceId appId app) w := by
  rw [raiseTier_eq_newReplica]
  apply Traces.guard
  · intro _
    exact balanced_of_nothing rfl
  intro _
  apply traces_balanced_bind asks_assertAdditionalReplicaAllowed
  intro _ w₁ hw₁
  apply traces_balanced_bind asks_loadFleet
  intro fleet w₂ hw₂
  apply Traces.ofExcept_bind
  · intro e _
    exact balanced_of_nothing rfl
  intro node _
  have hstored₂ : w₂.app appId = some app := by rw [hw₂.app, hw₁.app, hstored]
  have happId : app.appId = appId := (World.app_eq_some.mp hstored).2
  have hreplica : Traces (cluster agentsReport) (fun r w' calls ↦
      Made workspaceId appId w₂ w' calls ∧ Replicated deps false w₂ node r calls)
      (newReplica workspaceId node (secondReplicaBody deps workspaceId app)) w₂ :=
    newReplica_traces (Made.nil w₂) happId
  apply hreplica.bind
  · intro replica w₃ first hfirst
    have hstaged := Staged.single hfirst.1 hfirst.2
    apply traces_service (s := .now) rfl
    intro time w₄ second hsecond
    have hstaged₄ := hstaged.passes hsecond
    simp only [← append_assoc]
    apply traces_ingressUpsert.bind
    · intro _ w₅ third hthird
      obtain ⟨hquiet, x, hthird, hfault⟩ := hthird
      have hnothing : created third = [] := by
        rw [hthird]
        rfl
      have hkept : ∀ event ∈ third, ¬ Loses deps false w₂ event := by
        intro event hevent hlost
        rw [hthird, mem_singleton] at hevent
        subst hevent
        exact hlost.2 (hfault.mp rfl)
      simp only [← append_assoc]
      apply (hstaged₄.frame hquiet.apps hquiet.containers hnothing hkept).raised hstored₂ hworkspace
      intro answer
      apply asks_randomUUID.bind
      intro eventId
      exact asks_insertEvent.bind fun _ ↦ asks_randomUUID.bind fun _ ↦ asks_insertEvent
    · intro e w₅ third hthird
      obtain ⟨hquiet, x, rfl, hfault⟩ := hthird
      apply (hstaged₄.made.frame hquiet.apps hquiet.containers rfl).balanced_of_lost
      refine ⟨_, mem_append_right _ (mem_singleton_self _), rfl, ?_⟩
      intro hnone
      cases hfault.mpr hnone
  · intro e w₃ first hfirst
    exact hfirst.1.balanced_of_failed hfirst.2

/-- A call that makes no container. -/
def Barren (c : Call) : Prop := ∀ x, createdAt (c, x) = none

theorem Incidental.barren {c : Call} (h : Incidental c) : Barren c :=
  fun _ ↦ createdAt_of_incidental h

/-- Lowering the tier deletes containers and makes none. -/
theorem asks_lowerTier : Asks Barren (lowerTier workspaceId appId app) := by
  have hdrop (nodes : List MasterNode) (replica : AppReplica) :
      Asks Barren (dropReplica workspaceId nodes replica) := by
    unfold dropReplica
    cases nodeOf nodes replica.nodeId with
    | none => trivial
    | some node =>
      have hcall : Barren (.request ⟨node.nodeId, workspaceId, .remove replica.containerId⟩) :=
        fun _ ↦ rfl
      exact (Asks.ask hcall).bind fun _ ↦ Asks.throwIf
  have hingress (subdomain : String) (nodes : List MasterNode) :
      Asks Barren (ingressUpsert subdomain nodes) := by
    have hcall : Barren (.service (.ingressUpsert subdomain (nodes.map (·.nodeId)))) := fun _ ↦ rfl
    exact Asks.ask hcall
  have hupdate (filter : MasterApp → Bool) (update : MasterApp → MasterApp) :
      Asks Barren (Apps.updateOne filter update) := by
    have hcall : Barren (.apps (.updateOne filter update)) := fun _ ↦ rfl
    exact Asks.ask hcall
  have hevent {time : Time} : Asks Incidental (tierEvent workspaceId app 1 time) :=
    asks_randomUUID.bind fun _ ↦ asks_insertEvent
  unfold lowerTier
  split
  · trivial
  · apply (asks_findNodes.imp fun _ ↦ Incidental.barren).bind
    intro nodes
    apply (Asks.forEach fun replica _ ↦ hdrop nodes replica).bind
    intro _
    apply (asks_now.imp fun _ ↦ Incidental.barren).bind
    intro time
    apply (hingress _ _).bind
    intro _
    apply (hupdate _ _).bind
    intro _
    apply Asks.onlyIf
    exact (asks_insertReplicaEvents.bind fun _ ↦ hevent).imp fun _ ↦ Incidental.barren

theorem applyTier_balanced (hstored : w.app appId = some app)
    (hworkspace : app.workspaceId = workspaceId) :
    Traces (cluster agentsReport) (fun _ w' calls ↦ Balanced deps false w w' calls)
      (applyTier deps workspaceId appId app availabilityTier) w := by
  unfold applyTier
  split
  · exact raiseTier_balanced hstored hworkspace
  · apply (asks_lowerTier.traces (m := cluster agentsReport) w).imp
    intro r w' calls hbarren
    apply balanced_of_nothing
    rw [created, filterMap_eq_nil_iff]
    intro event hevent
    exact hbarren event hevent event.2

theorem changeAvailabilityTier_balanced :
    Traces (cluster agentsReport) (fun _ w' calls ↦ Balanced deps false w w' calls)
      (changeAvailabilityTier deps workspaceId appId availabilityTier) w := by
  apply traces_balanced_lock
  intro w₁ _
  apply traces_findOneApp
  · intro x _
    apply Traces.imp (Q := fun _ w' calls ↦ Balanced deps false w₁ w' calls)
    · cases hfind : w₁.apps.docs.find? fun app ↦
          AppLifecycle.byId workspaceId appId app && app.state != .removed with
      | none => exact balanced_of_nothing rfl
      | some app =>
        have hby : AppLifecycle.byId workspaceId appId app := by
          have hmatch := find?_some hfind
          rw [Bool.and_eq_true] at hmatch
          exact hmatch.1
        obtain ⟨happId, hworkspace⟩ := byId_iff.mp hby
        have hstored : w₁.app appId = some app :=
          World.app_eq_some.mpr ⟨mem_of_find?_eq_some hfind, happId⟩
        apply Traces.guard
        · intro _
          exact balanced_of_nothing rfl
        intro _
        split
        · exact balanced_of_nothing rfl
        apply Traces.guard
        · intro _
          exact balanced_of_nothing rfl
        intro _
        apply (applyTier_balanced hstored hworkspace).bind
        · intro _ w₂ calls hbalanced
          apply (traces_passes asks_findOneApp w₂).imp
          intro r w' last hlast
          exact hbalanced.around (rfl : w₁.apps = w₁.apps) incidental_nil hlast.incidental
            hlast.quiet.apps hlast.quiet.containers
        · intro e w₂ calls hbalanced
          exact hbalanced
    · intro r w' calls hbalanced
      have hlookup : ∀ event ∈ [((.apps (.findOne fun app ↦
          AppLifecycle.byId workspaceId appId app && app.state != .removed) : Call), x)],
          Incidental event.1 :=
        forall_mem_singleton.mpr ⟨trivial, by simp⟩
      have haround := hbalanced.around (rfl : w₁.apps = w₁.apps) hlookup incidental_nil
        (rfl : w'.apps = w'.apps) rfl
      rwa [append_nil] at haround
  · intro x _
    exact balanced_of_nothing rfl

/-! ## Requests that throw -/

/-- A request that makes containers and throws; the change of the tier does not compensate. -/
inductive Throws (deps : DeploymentDeps) (workspaceId : String) (w w' : World)
    (calls : List (Call × Choice)) : Bool → Prop
  | deploy {raw : RawDeploy} {e : JsError}
      (run : Executes (cluster agentsReport).traced (deploy deps workspaceId raw) (w, [])
        (.threw e) (w', calls)) : Throws deps workspaceId w w' calls true
  | deployMcp {grant : McpDeploymentGrantPayload} {deploymentGrantHash : String}
      {hubIdentity : HubIdentity} {e : JsError}
      (run : Executes (cluster agentsReport).traced
        (deployMcp deps workspaceId grant deploymentGrantHash hubIdentity) (w, [])
        (.threw e) (w', calls)) : Throws deps workspaceId w w' calls true
  | changeAvailabilityTier {appId : String} {availabilityTier : AvailabilityTier} {e : JsError}
      (run : Executes (cluster agentsReport).traced
        (changeAvailabilityTier deps workspaceId appId availabilityTier) (w, [])
        (.threw e) (w', calls)) : Throws deps workspaceId w w' calls false

/--
A request that throws leaves no running container that its record does not name, exactly when it
made none, or every container was confirmed and the writes after it were not refused.
-/
theorem accounted_iff_not_loses {w' : World} {calls : List (Call × Choice)} {compensates : Bool}
    (h : Throws deps workspaceId w w' calls compensates) :
    Accounted w' calls ↔
      created calls = [] ∨ ∀ event ∈ calls, ¬ Loses deps compensates w event := by
  cases h with
  | deploy run => exact deploy_balanced.post (r := .error _) run
  | deployMcp run => exact deployMcp_balanced.post (r := .error _) run
  | changeAvailabilityTier run => exact changeAvailabilityTier_balanced.post (r := .error _) run

end Deployment

/-! ## An app id of a removed record -/

namespace Sample

open Deployment

/-- A request for an app whose record was removed. -/
def notesRequest : RawDeploy where
  appId := some "notes"
  listingId := "listing"
  versionDigest := digest 'a'
  image := "registry/notes"
  digest := digest 'b'
  memoryMb := 256
  cpus := 1

def removedWorld : World := world (app none .removed none) (by decide)

/-- The container id that an agent gives is free. -/
abbrev FreshFree (nodeId : String) (w : World) : Prop :=
  (w.containers nodeId "fresh").isNone ∧
    ∀ app ∈ w.apps.docs, ∀ replica ∈ app.replicas, replica.containerId ≠ "fresh"

/-- Agents make a container under the id `fresh` if it is free, and confirm it. -/
def freshContainer : Call → World × List (Call × Choice) → Choice
  | .request ⟨nodeId, _, .deploy _⟩, s =>
    if FreshFree nodeId s.1 then
      { answer := some ⟨201, { id := some "fresh" }⟩, containerId := "fresh" }
    else { answer := none, performed := false }
  | .request ⟨_, _, .mcpDeploy _ _⟩, _ => { answer := none, performed := false }
  | _, _ => { text := "fresh" }

theorem freshContainer_lawful (c : Call) (s : World × List (Call × Choice)) :
    (cluster agentsReport).traced.permits c (freshContainer c s) s := by
  cases c with
  | request sent =>
    obtain ⟨nodeId, workspaceId, body⟩ := sent
    cases body with
    | deploy body =>
      by_cases hfree : FreshFree nodeId s.1
      · simp only [freshContainer, if_pos hfree]
        constructor
        · intro _
          refine ⟨Option.isNone_iff_eq_none.mp hfree.1, ?_⟩
          intro app happ hnames
          obtain ⟨replica, hreplica, -, hid⟩ := hnames
          exact hfree.2 app happ replica hreplica hid
        · intro response hresponse _
          cases hresponse
          exact ⟨rfl, rfl⟩
      · simp only [freshContainer, if_neg hfree]
        exact ⟨(fun h ↦ nomatch h), fun _ h ↦ nomatch h⟩
    | mcpDeploy body binding => exact ⟨(fun h ↦ nomatch h), fun _ h ↦ nomatch h⟩
    | remove containerId => rfl
    | _ => trivial
  | _ => trivial

def redeployed : Except JsError MasterApp × World × List (Call × Choice) :=
  (cluster agentsReport).traced.run freshContainer (deploy deploymentDeps "acme" notesRequest)
    (removedWorld, [])

theorem redeployed_threw : redeployed.1.isOk = false ∧ created redeployed.2.2 = [("n1", "fresh")] ∧
    (redeployed.2.1.containers "n1" "fresh").map (fun c ↦ (c.appId, c.running)) =
      some ("notes", true) ∧
    (redeployed.2.1.app "notes").all (fun app ↦ app.replicas.all (·.containerId != "fresh")) =
      true := by
  decide +kernel

theorem executes_redeployed : ∃ e, Executes (cluster agentsReport).traced
    (deploy deploymentDeps "acme" notesRequest) (removedWorld, []) (.threw e)
    (redeployed.2.1, redeployed.2.2) := by
  have run : Executes (cluster agentsReport).traced (deploy deploymentDeps "acme" notesRequest)
      (removedWorld, []) (.ofExcept redeployed.1) (redeployed.2.1, redeployed.2.2) :=
    Machine.executes_run (cluster agentsReport).traced freshContainer freshContainer_lawful
      (deploy deploymentDeps "acme" notesRequest) (removedWorld, [])
  have hthrew := redeployed_threw.1
  cases h : redeployed.1 with
  | ok app =>
    rw [h] at hthrew
    cases hthrew
  | error e =>
    rw [h] at run
    exact ⟨e, run⟩

end Sample

namespace Deployment

theorem accounted_iff_not_loses_redeployed : ∃ w' calls,
    Throws Sample.deploymentDeps "acme" Sample.removedWorld w' calls true ∧
    (Accounted w' calls ↔ created calls = [] ∨
      ∀ event ∈ calls, ¬ Loses Sample.deploymentDeps true Sample.removedWorld event) := by
  obtain ⟨e, run⟩ := Sample.executes_redeployed
  have hthrows : Throws Sample.deploymentDeps "acme" Sample.removedWorld Sample.redeployed.2.1
      Sample.redeployed.2.2 true := .deploy run
  exact ⟨_, _, hthrows, accounted_iff_not_loses hthrows⟩

/-- The record of a removed app takes the app id, and the new container stays without a record. -/
theorem redeployed_unaccounted : ∃ e w' calls,
    Executes (cluster agentsReport).traced
      (deploy Sample.deploymentDeps "acme" Sample.notesRequest) (Sample.removedWorld, []) (.threw e)
      (w', calls) ∧ ¬ Accounted w' calls := by
  obtain ⟨e, run⟩ := Sample.executes_redeployed
  refine ⟨e, _, _, run, ?_⟩
  intro haccounted
  obtain ⟨-, hcreated, hcontainer, hnamed⟩ := Sample.redeployed_threw
  obtain ⟨c, hc, happ⟩ := Option.map_eq_some_iff.mp hcontainer
  rw [Prod.mk.injEq] at happ
  have hplace : ("n1", "fresh") ∈ created Sample.redeployed.2.2 := by
    rw [hcreated]
    exact mem_singleton_self _
  obtain ⟨app, hstored, replica, hreplica, -, hid⟩ := haccounted ("n1", "fresh") hplace c hc happ.2
  rw [happ.1] at hstored
  rw [hstored] at hnamed
  have hother := List.all_eq_true.mp hnamed replica hreplica
  simp [hid] at hother

end Deployment

end PrivosCluster
