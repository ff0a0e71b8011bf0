import PrivosCluster.Master.UpgradeSpec

/-!
# Containers of a failed deployment

A deployment of a raw or v2 app makes containers before it writes the record, and deletes them
again when a later replica fails. A container is left behind when the agent that made it did not
confirm it, or when the record itself cannot be written.
-/

namespace PrivosCluster

open AsyncProgram DocumentStore RuntimeSwap List AppLifecycle

variable {event : Call × Choice} {first : List (Call × Choice)} {filter : MasterNode → Bool}
  {input : DeployInput} {app : MasterApp} {body : DeployBody} {r : AgentRequest}
  {subdomain : String}

namespace Deployment

/-! ## Containers that agents create -/

/-- The place of the container that a request made, if it was performed. -/
def createdAt : Call × Choice → Option (String × String)
  | (.request ⟨nodeId, _, .deploy _⟩, x) | (.request ⟨nodeId, _, .mcpDeploy _ _⟩, x) =>
    if x.performed then some (nodeId, x.containerId) else none
  | _ => none

def created (calls : List (Call × Choice)) : List (String × String) := calls.filterMap createdAt

def Names (app : MasterApp) (place : String × String) : Prop :=
  ∃ replica ∈ app.replicas, replica.nodeId = place.1 ∧ replica.containerId = place.2

/-- Neither a container nor a record knows the place. -/
structure Vacant (w : World) (place : String × String) : Prop where
  empty : w.containers place.1 place.2 = none
  unnamed : ∀ app ∈ w.apps.docs, ¬ Names app place

/--
Deletions are performed. An agent creates a container under an id of its own, and an accepted
answer says which.
-/
def agentsReport : Law
  | .request ⟨nodeId, _, .deploy _⟩, x, w | .request ⟨nodeId, _, .mcpDeploy _ _⟩, x, w =>
    (x.performed = true → Vacant w (nodeId, x.containerId)) ∧
      ∀ response, x.answer = some response → response.status < 300 →
        x.performed = true ∧ response.body.id = some x.containerId
  | .request ⟨_, _, .remove _⟩, x, _ => x.performed = true
  | _, _, _ => True

/-- Every running container that the calls made is named in the stored record of its app. -/
def Accounted (w : World) (calls : List (Call × Choice)) : Prop :=
  ∀ place ∈ created calls, ∀ c, w.containers place.1 place.2 = some c → c.running = true →
    ∃ app, w.app c.appId = some app ∧ Names app place

/-- The node proves its identity in an accepted answer. -/
def Identified (crypto : Crypto) (nodeId : String) (x : Choice) : Prop :=
  ∃ response node, x.answer = some response ∧ response.status < 300 ∧ node.nodeId = nodeId ∧
    (checkNodeIdentity crypto node response.body).isOk = true

/--
The calls after which a container is lost: it exists and is not confirmed, or the record is not
written. Without compensation a failure of the ingress has the same effect.
-/
def Loses (deps : DeploymentDeps) (compensates : Bool) (w : World) : Call × Choice → Prop
  | (.request ⟨_, _, .deploy _⟩, x) => x.performed = true ∧ confirmed x = false
  | (.request ⟨nodeId, _, .mcpDeploy _ _⟩, x) =>
    x.performed = true ∧ ¬ Identified deps.crypto nodeId x
  | (.nodes (.updateOne _ _), x) => x.fault ≠ .none
  | (.service (.ingressUpsert _ _), x) => compensates = false ∧ x.fault ≠ .none
  | (.apps (.insertOne app), x) =>
    x.fault = .refused ∨ ¬ ((w.apps.docs ++ [app]).flatMap appKeys).Nodup
  | (.apps (.updateOne _ _), x) => x.fault = .refused
  | _ => False

/-- Containers are accounted for exactly when none was made or no call loses them. -/
def Balanced (deps : DeploymentDeps) (compensates : Bool) (w w' : World)
    (calls : List (Call × Choice)) : Prop :=
  Accounted w' calls ↔ created calls = [] ∨ ∀ event ∈ calls, ¬ Loses deps compensates w event

/-- The call neither makes a container nor writes a record nor programs the ingress. -/
def Incidental (c : Call) : Prop :=
  c.IsQuiet ∧ ∀ subdomain nodeIds, c ≠ .service (.ingressUpsert subdomain nodeIds)

section

variable {law : Law} {deps : DeploymentDeps} {compensates : Bool} {w w₁ w' w'' : World}
  {calls calls' : List (Call × Choice)}

@[simp] theorem created_append : created (calls ++ calls') = created calls ++ created calls' :=
  filterMap_append ..

theorem createdAt_of_incidental (h : Incidental event.1) : createdAt event = none := by
  obtain ⟨c, x⟩ := event
  cases c with
  | request sent => exact h.1.elim
  | _ => rfl

theorem created_of_incidental (h : ∀ event ∈ calls, Incidental event.1) : created calls = [] :=
  filterMap_eq_nil_iff.mpr fun event hevent ↦ createdAt_of_incidental (h event hevent)

theorem not_loses_of_incidental (h : Incidental event.1) : ¬ Loses deps compensates w event := by
  obtain ⟨c, x⟩ := event
  cases c with
  | apps op | nodes op =>
    cases op with
    | findOne | find => exact id
    | _ => exact h.1.elim
  | request sent => exact h.1.elim
  | service s =>
    cases s with
    | ingressUpsert subdomain nodeIds => exact absurd rfl (h.2 subdomain nodeIds)
    | _ => exact id
  | _ => exact id

theorem loses_congr (happs : w'.apps = w.apps) :
    Loses deps compensates w' event ↔ Loses deps compensates w event := by
  unfold Loses
  rw [happs]

theorem balanced_of_nothing (h : created calls = []) : Balanced deps compensates w w' calls := by
  refine iff_of_true ?_ (.inl h)
  intro place hplace
  rw [h] at hplace
  cases hplace

/-- Incidental calls around others change nothing. -/
theorem Balanced.around {last : List (Call × Choice)} (h : Balanced deps compensates w₁ w' calls)
    (happs : w₁.apps = w.apps) (hfirst : ∀ event ∈ first, Incidental event.1)
    (hlast : ∀ event ∈ last, Incidental event.1) (happs' : w''.apps = w'.apps)
    (hcontainers : w''.containers = w'.containers) :
    Balanced deps compensates w w'' (first ++ (calls ++ last)) := by
  have hcreated : created (first ++ (calls ++ last)) = created calls := by
    rw [created_append, created_append, created_of_incidental hfirst, created_of_incidental hlast,
      nil_append, append_nil]
  have haccounted : Accounted w'' (first ++ (calls ++ last)) ↔ Accounted w' calls := by
    simp only [Accounted, hcreated, hcontainers, World.app, happs']
  have hloses : (∀ event ∈ first ++ (calls ++ last), ¬ Loses deps compensates w event) ↔
      ∀ event ∈ calls, ¬ Loses deps compensates w₁ event := by
    constructor
    · intro hall event hevent
      rw [loses_congr happs]
      exact hall event (by simp [hevent])
    · intro hall event hevent
      simp only [mem_append] at hevent
      obtain hevent | hevent | hevent := hevent
      · exact not_loses_of_incidental (hfirst event hevent)
      · rw [← loses_congr happs]
        exact hall event hevent
      · exact not_loses_of_incidental (hlast event hevent)
  rw [Balanced, haccounted, hcreated, hloses]
  exact h

/-! ## Programs of incidental calls -/

/-- The run made incidental calls only. -/
structure Passes (w w' : World) (calls : List (Call × Choice)) : Prop where
  quiet : Quiet w w'
  incidental : ∀ event ∈ calls, Incidental event.1

variable {α : Type}

theorem traces_passes {p : Async α} (h : Asks Incidental p) (w : World) :
    Traces (cluster law) (fun _ w' calls ↦ Passes w w' calls) p w := by
  induction p generalizing w with
  | pure a => exact ⟨Quiet.refl w, fun _ h ↦ nomatch h⟩
  | throw e => exact ⟨Quiet.refl w, fun _ h ↦ nomatch h⟩
  | call c k ih =>
    intro x _
    apply (ih _ (h.2 _) (respond c x w).2).imp
    intro r w' calls hpasses
    exact ⟨(respond_quiet h.1.1 x w).trans hpasses.quiet,
      forall_mem_cons.mpr ⟨h.1, hpasses.incidental⟩⟩

/-- A service of the process itself in front of a program. -/
theorem traces_service {s : Service} (hs : s.Fallible = false) {f : s.Answer → Async α}
    {Q : Except JsError α → World → List (Call × Choice) → Prop}
    (h : ∀ answer w₁ first, Passes w w₁ first →
      Traces (cluster law) (fun r w' calls ↦ Q r w' (first ++ calls)) (f answer) w₁) :
    Traces (cluster law) Q (awaitCall (.service s) >>= f) w := by
  intro x hx
  have hincidental : Incidental (.service s) := by
    refine ⟨trivial, ?_⟩
    intro subdomain nodeIds heq
    cases heq
    cases hs
  have hanswer : ((cluster law).respond (.service s) x w).1 = .ok (s.serve x w) := by
    simp [cluster, respond, hs]
  have hpasses : Passes w (respond (.service s) x w).2 [(.service s, x)] :=
    ⟨respond_quiet (c := .service s) trivial x w, forall_mem_singleton.mpr hincidental⟩
  rw [hanswer]
  exact h (s.serve x w) _ _ hpasses

theorem Passes.balanced (h : Passes w w' calls) : Balanced deps compensates w w' calls :=
  balanced_of_nothing (created_of_incidental h.incidental)

theorem incidental_nil : ∀ event ∈ ([] : List (Call × Choice)), Incidental event.1 :=
  fun _ h ↦ nomatch h

/-- Incidental calls after a call. -/
theorem traces_then {c : Call} {rest : c.Answer → Async α}
    {Q : World → List (Call × Choice) → Prop} (hrest : ∀ answer, Asks Incidental (rest answer))
    (h : ∀ x, law c x w → ∀ w' calls, Quiet (respond c x w).2 w' →
      (∀ event ∈ calls, Incidental event.1) → Q w' ((c, x) :: calls)) :
    Traces (cluster law) (fun _ w' calls ↦ Q w' calls) (awaitCall c >>= rest) w := by
  apply Traces.bind (R := fun _ w₁ first ↦ ∃ x, law c x w ∧ first = [(c, x)] ∧
    w₁ = (respond c x w).2)
  · apply traces_awaitCall c
    intro x hx
    exact ⟨x, hx, rfl, rfl⟩
  · intro answer w₁ first hfirst
    obtain ⟨x, hx, rfl, rfl⟩ := hfirst
    apply (traces_passes (hrest answer) _).imp
    intro r w' calls hcalls
    exact h x hx w' calls hcalls.quiet hcalls.incidental
  · intro e w₁ first hfirst
    obtain ⟨x, hx, rfl, rfl⟩ := hfirst
    exact h x hx _ [] (Quiet.refl _) incidental_nil

/-- Incidental calls before a program. -/
theorem traces_balanced_bind {β : Type} {p : Async α} {f : α → Async β} (hp : Asks Incidental p)
    (hf : ∀ a w₁, Quiet w w₁ →
      Traces (cluster law) (fun _ w' calls ↦ Balanced deps compensates w₁ w' calls) (f a) w₁) :
    Traces (cluster law) (fun _ w' calls ↦ Balanced deps compensates w w' calls) (p >>= f) w := by
  apply (traces_passes hp w).bind
  · intro a w₁ first hfirst
    apply (hf a w₁ hfirst.quiet).imp
    intro r w' calls hbalanced
    have haround := hbalanced.around hfirst.quiet.apps hfirst.incidental incidental_nil
      (rfl : w'.apps = w'.apps) rfl
    rwa [append_nil] at haround
  · intro e w₁ first hfirst
    exact hfirst.balanced

variable {workspaceId : String}

/-- The lock around a program. -/
theorem traces_balanced_lock {p : Async α} (hp : ∀ w₁, Quiet w w₁ →
      Traces (cluster law) (fun _ w' calls ↦ Balanced deps compensates w₁ w' calls) p w₁) :
    Traces (cluster law) (fun _ w' calls ↦ Balanced deps compensates w w' calls)
      (withWorkspaceLock workspaceId p) w := by
  have hacquire : Incidental (.acquire workspaceId) := ⟨trivial, nofun⟩
  have hrelease : Incidental (.release workspaceId) := ⟨trivial, nofun⟩
  apply traces_balanced_bind (Asks.ask hacquire)
  intro _ w₁ hquiet
  apply Traces.finallyDo
  apply (hp w₁ hquiet).imp
  intro r w' calls hbalanced
  apply (traces_passes (Asks.ask hrelease) w').imp
  intro r' w'' last hlast
  have haround := hbalanced.around (rfl : w₁.apps = w₁.apps) incidental_nil hlast.incidental
    hlast.quiet.apps hlast.quiet.containers
  cases r' <;> exact haround

theorem asks_now : Asks Incidental now := Asks.ask ⟨trivial, nofun⟩

theorem asks_randomUUID : Asks Incidental randomUUID := Asks.ask ⟨trivial, nofun⟩

theorem asks_promiseBoth {β : Type} {P : Call → Prop} {p : Async α} {q : Async β}
    (horder : P (.service (.arrivalOrder 2))) (hp : Asks P p) (hq : Asks P q) :
    Asks P (promiseBoth p q) := by
  have hinTurn {α β : Type} {p : Async α} {q : Async β} (hp : Asks P p) (hq : Asks P q) :
      Asks P (inTurn p q) :=
    hp.settle.bind fun _ ↦ hq.settle.bind fun _ ↦ Asks.ofExcept.bind fun _ ↦
      Asks.ofExcept.bind fun _ ↦ Asks.pure
  have harrival : Asks P (arrivalOrder 2) := Asks.ask horder
  apply harrival.bind
  intro order
  split
  · exact hinTurn hp hq
  · exact (hinTurn hq hp).bind fun _ ↦ Asks.pure

theorem incidental_arrivalOrder {n : Nat} : Incidental (.service (.arrivalOrder n)) :=
  ⟨trivial, nofun⟩

theorem asks_findApps {filter : MasterApp → Bool} : Asks Incidental (Apps.find filter) :=
  Asks.ask ⟨trivial, nofun⟩

theorem asks_findOneApp {filter : MasterApp → Bool} : Asks Incidental (Apps.findOne filter) :=
  Asks.ask ⟨trivial, nofun⟩

theorem asks_findNodes : Asks Incidental (Nodes.find filter) :=
  Asks.ask ⟨trivial, nofun⟩

theorem asks_installedApps : Asks Incidental (Quota.installedApps workspaceId) := by
  have hworkspace : Asks Incidental (Workspaces.findOne fun workspace ↦
      workspace.workspaceId == workspaceId && workspace.status == .active) :=
    Asks.ask ⟨trivial, nofun⟩
  apply asks_now.bind
  intro time
  apply (asks_promiseBoth incidental_arrivalOrder hworkspace asks_findApps).bind
  intro found
  obtain ⟨workspace, candidates⟩ := found
  cases workspace <;> trivial

theorem asks_assertWithin {quota : WorkspaceQuota} {wanted : Quota.Usage} :
    Asks Incidental (Quota.assertWithin quota wanted) :=
  Asks.throwIf.bind fun _ ↦ Asks.throwIf

theorem asks_loadFleet : Asks Incidental loadFleet :=
  asks_promiseBoth incidental_arrivalOrder asks_findNodes asks_findApps

theorem asks_place : Asks Incidental (place workspaceId input) := by
  apply Asks.throwIf.bind
  intro _
  apply Asks.bind (asks_installedApps.bind fun _ ↦ Asks.throwIf.bind fun _ ↦ asks_assertWithin)
  intro _
  exact asks_loadFleet.bind fun _ ↦ Asks.ofExcept

theorem asks_insertReplicaEvents {replicas : List AppReplica} {type : LifecycleEventType}
    {resources : ContainerResources} {storageBytes : Option Nat} {time : Time} :
    Asks Incidental (insertReplicaEvents workspaceId app replicas type resources
      storageBytes time) := by
  apply (Asks.mapEach fun _ _ ↦ asks_randomUUID.bind fun _ ↦ Asks.pure).bind
  intro events
  exact Asks.ask ⟨trivial, nofun⟩

theorem asks_insertEvent {event : AppLifecycleEvent} :
    Asks Incidental (LifecycleEvents.insertOne event) :=
  Asks.ask ⟨trivial, nofun⟩

theorem asks_recordAppInstalledEvent {time : Time} :
    Asks Incidental (recordAppInstalledEvent app time) := by
  apply asks_insertEvent.settle.bind
  intro outcome
  cases outcome with
  | ok => trivial
  | error error =>
    dsimp only
    split <;> trivial

end

/-! ## One replica -/

/-- The body with which a request makes a container. -/
def deployBody? : AgentRequest → Option DeployBody
  | .deploy body | .mcpDeploy body _ => some body
  | _ => none

theorem deployBody?_eq_some (h : deployBody? r = some body) :
    r = .deploy body ∨ ∃ binding, r = .mcpDeploy body binding := by
  cases r with
  | deploy body' =>
    cases h
    exact .inl rfl
  | mcpDeploy body' binding =>
    cases h
    exact .inr ⟨binding, rfl⟩
  | _ => cases h

def placeOf (replica : AppReplica) : String × String := (replica.nodeId, replica.containerId)

/-- The steps that make one replica of a raw app. -/
def newReplica (workspaceId : String) (node : MasterNode) (body : DeployBody) :
    Async AppReplica := do
  let response ← request node workspaceId (.deploy body)
  Program.throwIf (300 ≤ response.status)
    { message := "agent deploy failed: " ++ response.body.json }
  let replicaId ← randomUUID
  .pure { replicaId, nodeId := node.nodeId, containerId := response.body.id.getD "",
          state := response.body.state.getD "" }

/-- The containers made so far run under the app, and no record has changed or names one. -/
structure Made (workspaceId appId : String) (w₀ w : World) (calls : List (Call × Choice)) :
    Prop where
  apps : w.apps = w₀.apps
  distinct : (created calls).Nodup
  standing : ∀ place ∈ created calls, ∃ c, w.containers place.1 place.2 = some c ∧
    c.running = true ∧ c.appId = appId ∧ c.workspaceId = workspaceId
  unnamed : ∀ place ∈ created calls, ∀ app ∈ w₀.apps.docs, ¬ Names app place

/-- A replica that was made lost nothing, and one that was not lost what it made. -/
def Replicated (deps : DeploymentDeps) (compensates : Bool) (w₀ : World) (node : MasterNode)
    (r : Except JsError AppReplica) (calls : List (Call × Choice)) : Prop :=
  match r with
  | .ok replica => replica.nodeId = node.nodeId ∧ created calls = [placeOf replica] ∧
      ∀ event ∈ calls, ¬ Loses deps compensates w₀ event
  | .error _ => (∃ event ∈ calls, Loses deps compensates w₀ event) ↔ created calls ≠ []

section Replicas

variable {law : Law} {deps : DeploymentDeps} {compensates : Bool} {workspaceId appId : String}
  {w₀ w w' : World} {calls calls' : List (Call × Choice)}

theorem Made.nil (w₀ : World) : Made workspaceId appId w₀ w₀ [] :=
  ⟨rfl, nodup_nil, (nofun), nofun⟩

theorem Made.frame (h : Made workspaceId appId w₀ w calls) (happs : w'.apps = w.apps)
    (hcontainers : w'.containers = w.containers) (hcreated : created calls' = []) :
    Made workspaceId appId w₀ w' (calls ++ calls') where
  apps := happs.trans h.apps
  distinct := by simpa [hcreated] using h.distinct
  standing := by simpa [hcreated, hcontainers] using h.standing
  unnamed := by simpa [hcreated] using h.unnamed

theorem Made.passes (h : Made workspaceId appId w₀ w calls) (hpasses : Passes w w' calls') :
    Made workspaceId appId w₀ w' (calls ++ calls') :=
  h.frame hpasses.quiet.apps hpasses.quiet.containers (created_of_incidental hpasses.incidental)

/-- A request for a container, with what the law says of its answer. -/
structure Sent (workspaceId : String) (node : MasterNode) (r : AgentRequest)
    (answer : Except JsError AgentResponse) (calls : List (Call × Choice)) (x : Choice) : Prop where
  once : calls = [(.request ⟨node.nodeId, workspaceId, r⟩, x)]
  answers : answer = x.answer.elim (.error x.error) .ok
  created : created calls = if x.performed then [(node.nodeId, x.containerId)] else []
  accepted : ∀ response, x.answer = some response → response.status < 300 →
    x.performed = true ∧ response.body.id = some x.containerId

variable {node : MasterNode}

theorem traces_request_made (h : Made workspaceId appId w₀ w calls) (hr : deployBody? r = some body)
    (happId : body.appId = appId) :
    Traces (cluster agentsReport) (fun answer w' calls' ↦
      Made workspaceId appId w₀ w' (calls ++ calls') ∧
        ∃ x, Sent workspaceId node r answer calls' x) (request node workspaceId r) w := by
  apply traces_awaitCall (.request ⟨node.nodeId, workspaceId, r⟩)
  intro x hx
  have hlaw : (x.performed → Vacant w (node.nodeId, x.containerId)) ∧
      ∀ response, x.answer = some response → response.status < 300 →
        x.performed ∧ response.body.id = some x.containerId := by
    rcases deployBody?_eq_some hr with rfl | ⟨binding, rfl⟩ <;> exact hx
  have hcreated : created [(.request ⟨node.nodeId, workspaceId, r⟩, x)] =
      if x.performed then [(node.nodeId, x.containerId)] else [] := by
    rcases deployBody?_eq_some hr with rfl | ⟨binding, rfl⟩ <;>
      cases hp : x.performed <;> simp [created, createdAt, hp]
  have hperform : SentRequest.perform ⟨node.nodeId, workspaceId, r⟩ x.containerId w.containers =
      w.containers.set node.nodeId x.containerId
        (some ⟨workspaceId, appId, body.digest, true⟩) := by
    subst happId
    rcases deployBody?_eq_some hr with rfl | ⟨binding, rfl⟩ <;> rfl
  have hsent : Sent workspaceId node r
      (respond (.request ⟨node.nodeId, workspaceId, r⟩) x w).1
      [(.request ⟨node.nodeId, workspaceId, r⟩, x)] x := by
    refine ⟨rfl, ?_, hcreated, hlaw.2⟩
    simp only [respond]
    cases x.answer <;> rfl
  refine ⟨?_, x, hsent⟩
  cases hp : x.performed with
  | false =>
    have hsame : (respond (.request ⟨node.nodeId, workspaceId, r⟩) x w).2.containers =
        w.containers := by simp [respond, hp]
    exact h.frame rfl hsame (by simp [hcreated, hp])
  | true =>
    have hvacant := hlaw.1 hp
    have hcontainers : (respond (.request ⟨node.nodeId, workspaceId, r⟩) x w).2.containers =
        w.containers.set node.nodeId x.containerId
          (some ⟨workspaceId, appId, body.digest, true⟩) := by
      simp [respond, hp, hperform]
    have hnew : (node.nodeId, x.containerId) ∉ created calls := by
      intro hold
      have hstands := h.standing _ hold
      simp [hvacant.empty] at hstands
    rw [if_pos hp] at hcreated
    refine ⟨h.apps, ?_, ?_, ?_⟩
    · rw [created_append, hcreated]
      exact h.distinct.append (nodup_singleton _) (disjoint_singleton.mpr hnew)
    · intro place hplace
      rw [created_append, hcreated, mem_append, mem_singleton] at hplace
      simp only [hcontainers, Containers.set_apply]
      obtain hplace | rfl := hplace
      · have hne : ¬ (place.1 = node.nodeId ∧ place.2 = x.containerId) := by
          intro heq
          apply hnew
          rw [← heq.1, ← heq.2]
          exact hplace
        simpa only [if_neg hne] using h.standing place hplace
      · simp
    · intro place hplace app happ
      rw [created_append, hcreated, mem_append, mem_singleton] at hplace
      obtain hplace | rfl := hplace
      · exact h.unnamed place hplace app happ
      · rw [← h.apps] at happ
        exact hvacant.unnamed app happ

theorem Replicated.failed {e : JsError} {x : Choice} {answer : Except JsError AgentResponse}
    (hsent : Sent workspaceId node r answer calls x)
    (hloses : Loses deps compensates w₀ (.request ⟨node.nodeId, workspaceId, r⟩, x) ↔ x.performed) :
    Replicated deps compensates w₀ node (.error e) calls := by
  have hcreated := hsent.created
  obtain rfl := hsent.once
  simp only [Replicated, mem_singleton, exists_eq_left, hloses, hcreated]
  cases x.performed <;> simp

theorem newReplica_traces (h : Made workspaceId appId w₀ w calls) (happId : body.appId = appId) :
    Traces (cluster agentsReport) (fun r w' calls' ↦
      Made workspaceId appId w₀ w' (calls ++ calls') ∧ Replicated deps compensates w₀ node r calls')
      (newReplica workspaceId node body) w := by
  apply (traces_request_made h rfl happId).bind
  · intro response w₁ first hfirst
    obtain ⟨hmade, x, hsent⟩ := hfirst
    have hanswer : x.answer = some response := by
      have hanswers := hsent.answers
      cases ha : x.answer <;> simp_all
    apply Traces.guard
    · intro hrefused
      rw [append_nil]
      refine ⟨hmade, .failed hsent ?_⟩
      simp [Loses, confirmed, hanswer, Nat.not_lt.mpr hrefused]
    · intro haccepted
      rw [Nat.not_le] at haccepted
      obtain ⟨hperformed, hid⟩ := hsent.accepted response hanswer haccepted
      apply traces_service (s := .randomUUID) rfl
      intro replicaId w₂ last hlast
      apply Traces.pure
      rw [append_nil]
      constructor
      · rw [← append_assoc]
        exact hmade.passes hlast
      · have hcreated := hsent.created
        obtain rfl := hsent.once
        refine ⟨rfl, ?_, ?_⟩
        · rw [created_append, hcreated, created_of_incidental hlast.incidental]
          simp [hperformed, placeOf, hid]
        · intro event hevent
          obtain hevent | hevent := mem_append.mp hevent
          · obtain rfl := mem_singleton.mp hevent
            simp [Loses, confirmed, hanswer, haccepted]
          · exact not_loses_of_incidental (hlast.incidental event hevent)
  · intro e w₁ first hfirst
    obtain ⟨hmade, x, hsent⟩ := hfirst
    have hanswer : x.answer = none := by
      have hanswers := hsent.answers
      cases ha : x.answer <;> simp_all
    refine ⟨hmade, .failed hsent ?_⟩
    simp [Loses, confirmed, hanswer]

theorem deployReplica_traces (h : Made workspaceId appId w₀ w calls) :
    Traces (cluster agentsReport) (fun r w' calls' ↦
      Made workspaceId appId w₀ w' (calls ++ calls') ∧ Replicated deps compensates w₀ node r calls')
      (deployReplica deps workspaceId appId subdomain input node) w := by
  exact newReplica_traces h rfl

theorem Replicated.after {r : Except JsError AppReplica}
    (h : Replicated deps compensates w₀ node r calls)
    (hfirst : ∀ event ∈ first, Incidental event.1) :
    Replicated deps compensates w₀ node r (first ++ calls) := by
  have hcreated : created (first ++ calls) = created calls := by
    rw [created_append, created_of_incidental hfirst, nil_append]
  have hloses : (∃ event ∈ first ++ calls, Loses deps compensates w₀ event) ↔
      ∃ event ∈ calls, Loses deps compensates w₀ event := by
    constructor
    · intro hlost
      obtain ⟨event, hevent, hloses⟩ := hlost
      obtain hevent | hevent := mem_append.mp hevent
      · exact absurd hloses (not_loses_of_incidental (hfirst event hevent))
      · exact ⟨event, hevent, hloses⟩
    · intro hlost
      obtain ⟨event, hevent, hloses⟩ := hlost
      exact ⟨event, mem_append_right _ hevent, hloses⟩
  cases r with
  | ok replica =>
    refine ⟨h.1, hcreated.trans h.2.1, ?_⟩
    intro event hevent hlost
    obtain ⟨event', hevent', hlost'⟩ := hloses.mp ⟨event, hevent, hlost⟩
    exact h.2.2 event' hevent' hlost'
  | error e =>
    rw [Replicated, hloses, hcreated]
    exact h

theorem checkNodeIdentity_congr {crypto : Crypto} {node' : MasterNode} {body : AgentBody}
    (h : node'.nodeId = node.nodeId) :
    checkNodeIdentity crypto node' body = checkNodeIdentity crypto node body := by
  simp only [checkNodeIdentity, h]

theorem identified_iff (crypto : Crypto) (node : MasterNode) {x : Choice} {response : AgentResponse}
    (hanswer : x.answer = some response) (haccepted : response.status < 300) :
    Identified crypto node.nodeId x ↔ (checkNodeIdentity crypto node response.body).isOk := by
  constructor
  · intro h
    obtain ⟨response', node', hanswer', -, hnode', hidentity⟩ := h
    obtain rfl : response = response' := Option.some.inj (hanswer.symm.trans hanswer')
    rwa [← checkNodeIdentity_congr hnode']
  · intro h
    exact ⟨response, node, hanswer, haccepted, rfl, h⟩

/-- The write of a node record changes neither apps nor containers. -/
theorem traces_updateNode {update : MasterNode → MasterNode}
    (hkeys : ∀ node, nodeKeys (update node) = nodeKeys node) :
    Traces (cluster law) (fun r w' calls ↦ w'.apps = w.apps ∧ w'.containers = w.containers ∧
      ∃ x, calls = [(.nodes (.updateOne filter update), x)] ∧ (r.isOk ↔ x.fault = .none))
      (Nodes.updateOne filter update) w := by
  apply traces_awaitCall (.nodes (.updateOne filter update))
  intro x _
  refine ⟨rfl, rfl, x, rfl, ?_⟩
  have hkept : ∀ node, filter node → nodeKeys (update node) = nodeKeys node :=
    fun node _ ↦ hkeys node
  obtain ⟨nodes, -, hserve⟩ := serveStore_updateOne (c := w.nodes) (x := x) hkept
  simp only [respond, hserve]
  cases x.fault <;> simp [Except.isOk, Except.toBool]

theorem deployMcpReplica_traces {grant : McpDeploymentGrantPayload} {deploymentGrantHash : String}
    {hubIdentity : HubIdentity} (h : Made workspaceId appId w₀ w calls) :
    Traces (cluster agentsReport) (fun r w' calls' ↦
      Made workspaceId appId w₀ w' (calls ++ calls') ∧ Replicated deps compensates w₀ node r calls')
      (deployMcpReplica deps workspaceId appId subdomain input grant deploymentGrantHash hubIdentity
        node) w := by
  apply traces_service (s := .randomUUID) rfl
  intro replicaId w₁ first hfirst
  suffices hrest : Traces (cluster agentsReport) (fun r w' calls' ↦
      Made workspaceId appId w₀ w' ((calls ++ first) ++ calls') ∧ Replicated deps compensates w₀ node r calls') _ w₁ by
    apply hrest.imp
    intro r w' calls' hrest
    rw [append_assoc] at hrest
    exact ⟨hrest.1, hrest.2.after hfirst.incidental⟩
  apply (traces_request_made (h.passes hfirst) rfl rfl).bind
  · intro response w₂ sent hsent
    obtain ⟨hmade, x, hsent⟩ := hsent
    have hanswer : x.answer = some response := by
      have hanswers := hsent.answers
      cases ha : x.answer <;> simp_all
    apply Traces.guard
    · intro hrefused
      rw [append_nil]
      refine ⟨hmade, .failed hsent ?_⟩
      simp only [Loses, Identified, hanswer]
      grind
    · intro haccepted
      rw [Nat.not_le] at haccepted
      have hidentified := identified_iff deps.crypto node hanswer haccepted
      obtain ⟨hperformed, hid⟩ := hsent.accepted response hanswer haccepted
      apply Traces.ofExcept_bind
      · intro e hidentity
        rw [append_nil]
        refine ⟨hmade, .failed hsent ?_⟩
        rw [hidentity] at hidentified
        simp [Loses, hidentified, Except.isOk, Except.toBool]
      · intro identity hidentity
        rw [hidentity] at hidentified
        have hcreated : created sent = [(node.nodeId, x.containerId)] := by
          rw [hsent.created, if_pos hperformed]
        have hkept : ∀ event ∈ sent, ¬ Loses deps compensates w₀ event := by
          intro event hevent hlost
          rw [hsent.once, mem_singleton] at hevent
          rw [hevent] at hlost
          exact hlost.2 (hidentified.mpr rfl)
        apply traces_service (s := .now) rfl
        intro time w₃ middle hmiddle
        have hstands (w₄ : World) (y : Choice) (op : DocumentStore.Operation MasterNode)
            (happs : w₄.apps = w₃.apps) (hcontainers : w₄.containers = w₃.containers) :
            Made workspaceId appId w₀ w₄
              (calls ++ first ++ (sent ++ (middle ++ [(.nodes op, y)]))) := by
          have hnothing : created [(.nodes op, y)] = [] := rfl
          have hnext := (hmade.passes hmiddle).frame happs hcontainers hnothing
          simpa only [append_assoc] using hnext
        have hplace (op : DocumentStore.Operation MasterNode) (y : Choice) :
            created (sent ++ (middle ++ [(.nodes op, y)])) = [(node.nodeId, x.containerId)] := by
          rw [created_append, created_append, hcreated, created_of_incidental hmiddle.incidental]
          rfl
        apply Traces.bind (traces_updateNode ?_)
        · intro _ w₄ last hlast
          obtain ⟨happs, hcontainers, y, rfl, hfault⟩ := hlast
          apply Traces.pure
          simp only [append_nil]
          refine ⟨hstands w₄ y _ happs hcontainers, rfl, ?_, ?_⟩
          · rw [hplace]
            simp [placeOf, hid]
          · intro event hevent
            simp only [mem_append, mem_singleton] at hevent
            obtain hevent | hevent | rfl := hevent
            · exact hkept event hevent
            · exact not_loses_of_incidental (hmiddle.incidental event hevent)
            · exact fun hlost ↦ hlost (hfault.mp rfl)
        · intro e w₄ last hlast
          obtain ⟨happs, hcontainers, y, rfl, hfault⟩ := hlast
          refine ⟨hstands w₄ y _ happs hcontainers, ?_⟩
          rw [Replicated, hplace]
          apply iff_of_true
          · refine ⟨_, mem_append_right _ (mem_append_right _ (mem_singleton_self _)), ?_⟩
            intro hnone
            cases hfault.mpr hnone
          · exact cons_ne_nil _ _
        · exact fun _ ↦ rfl
  · intro e w₂ sent hsent
    obtain ⟨hmade, x, hsent⟩ := hsent
    have hanswer : x.answer = none := by
      have hanswers := hsent.answers
      cases ha : x.answer <;> simp_all
    refine ⟨hmade, .failed hsent ?_⟩
    simp [Loses, Identified, hanswer]

end Replicas

/-! ## All replicas -/

/-- The containers made so far are those of the replicas and the lost ones. -/
structure Staged (deps : DeploymentDeps) (compensates : Bool) (workspaceId appId : String)
    (nodes : List MasterNode) (w₀ : World) (replicas : List AppReplica) (lost : List (String × String)) (w : World)
    (calls : List (Call × Choice)) : Prop where
  made : Made workspaceId appId w₀ w calls
  known : ∀ replica ∈ replicas, (AppLifecycle.nodeOf nodes replica.nodeId).isSome = true
  places : created calls = replicas.map placeOf ++ lost
  loses : (∃ event ∈ calls, Loses deps compensates w₀ event) ↔ lost ≠ []

section Loop

variable {deps : DeploymentDeps} {compensates : Bool} {workspaceId appId : String} {nodes : List MasterNode}
  {w₀ w w' : World} {calls calls' : List (Call × Choice)} {replicas : List AppReplica} {lost : List (String × String)}

theorem Staged.nil (w₀ : World) : Staged deps compensates workspaceId appId nodes w₀ [] [] w₀ [] :=
  ⟨Made.nil w₀, (nofun), rfl, by simp⟩

theorem Staged.keeps (h : Staged deps compensates workspaceId appId nodes w₀ replicas [] w calls) :
    ∀ event ∈ calls, ¬ Loses deps compensates w₀ event := by
  intro event hevent hlost
  exact h.loses.mp ⟨event, hevent, hlost⟩ rfl

/-- What follows a stage without losses loses what it loses itself. -/
theorem Staged.loses_append (h : Staged deps compensates workspaceId appId nodes w₀ replicas [] w calls) :
    (∃ event ∈ calls ++ calls', Loses deps compensates w₀ event) ↔
      ∃ event ∈ calls', Loses deps compensates w₀ event := by
  constructor
  · intro hlost
    obtain ⟨event, hevent, hloses⟩ := hlost
    obtain hevent | hevent := mem_append.mp hevent
    · exact absurd hloses (h.keeps event hevent)
    · exact ⟨event, hevent, hloses⟩
  · intro hlost
    obtain ⟨event, hevent, hloses⟩ := hlost
    exact ⟨event, mem_append_right _ hevent, hloses⟩

theorem Staged.frame (h : Staged deps compensates workspaceId appId nodes w₀ replicas lost w calls)
    (happs : w'.apps = w.apps) (hcontainers : w'.containers = w.containers)
    (hcreated : created calls' = []) (hkept : ∀ event ∈ calls', ¬ Loses deps compensates w₀ event) :
    Staged deps compensates workspaceId appId nodes w₀ replicas lost w' (calls ++ calls') where
  made := h.made.frame happs hcontainers hcreated
  known := h.known
  places := by rw [created_append, hcreated, append_nil, h.places]
  loses := by
    rw [← h.loses]
    constructor
    · intro hlost
      obtain ⟨event, hevent, hloses⟩ := hlost
      obtain hevent | hevent := mem_append.mp hevent
      · exact ⟨event, hevent, hloses⟩
      · exact absurd hloses (hkept event hevent)
    · intro hlost
      obtain ⟨event, hevent, hloses⟩ := hlost
      exact ⟨event, mem_append_left _ hevent, hloses⟩

theorem Staged.passes
    (h : Staged deps compensates workspaceId appId nodes w₀ replicas lost w calls)
    (hpasses : Passes w w' calls') :
    Staged deps compensates workspaceId appId nodes w₀ replicas lost w' (calls ++ calls') :=
  h.frame hpasses.quiet.apps hpasses.quiet.containers (created_of_incidental hpasses.incidental)
    fun event hevent ↦ not_loses_of_incidental (hpasses.incidental event hevent)

/-- The replicas are made one after the other, up to the first that fails. -/
theorem collectReplicas_traces {body : MasterNode → Async AppReplica}
    (hbody : ∀ node ∈ nodes, ∀ w calls, Made workspaceId appId w₀ w calls →
      Traces (cluster agentsReport) (fun r w' calls' ↦
        Made workspaceId appId w₀ w' (calls ++ calls') ∧ Replicated deps compensates w₀ node r calls') (body node) w)
    (h : Staged deps compensates workspaceId appId nodes w₀ [] [] w calls) :
    Traces (cluster agentsReport) (fun r w' calls' ↦ ∃ replicas failure lost,
      r = .ok (replicas, failure) ∧ (failure = none → lost = []) ∧
        Staged deps compensates workspaceId appId nodes w₀ replicas lost w' (calls ++ calls'))
      (Program.collectEach body [] nodes) w := by
  apply Traces.imp (Traces.collectEach (I := fun done ↦ Staged deps compensates workspaceId appId nodes w₀ done [])
    (F := fun done _ w calls ↦ ∃ lost, Staged deps compensates workspaceId appId nodes w₀ done lost w calls) ?_ h)
  · intro r w' calls' hr
    obtain ⟨replicas, ⟨hr, hstaged⟩ | ⟨e, hr, lost, hstaged⟩⟩ := hr
    · exact ⟨replicas, none, [], hr, fun _ ↦ rfl, hstaged⟩
    · exact ⟨replicas, some e, lost, hr, (fun h ↦ nomatch h), hstaged⟩
  · intro node hnode done w calls hstaged
    apply (hbody node hnode w calls hstaged.made).imp
    intro r w' calls' hr
    obtain ⟨hmade, hreplicated⟩ := hr
    cases r with
    | ok replica =>
      refine ⟨hmade, ?_, ?_, ?_⟩
      · have hhere : (nodeOf nodes replica.nodeId).isSome := by
          rw [nodeOf, find?_isSome]
          exact ⟨node, hnode, by simp [hreplicated.1]⟩
        simpa [or_imp, forall_and] using ⟨hstaged.known, hhere⟩
      · rw [created_append, hstaged.places, hreplicated.2.1]
        simp
      · rw [hstaged.loses_append]
        simpa using hreplicated.2.2
    | error e =>
      refine ⟨created calls', hmade, hstaged.known, ?_, ?_⟩
      · rw [created_append, hstaged.places, append_nil]
      · rw [hstaged.loses_append]
        exact hreplicated

end Loop

/-! ## Deletion of the replicas -/

/-- The calls of a batch of deletions. -/
def Removal : Call → Prop
  | .service (.arrivalOrder _) => True
  | .request ⟨_, _, .remove _⟩ => True
  | _ => False

section Undo

variable {deps : DeploymentDeps} {compensates : Bool} {workspaceId : String} {nodes : List MasterNode}
  {w₀ w : World} {calls : List (Call × Choice)} {replicas : List AppReplica}

theorem createdAt_of_removal (h : Removal event.1) : createdAt event = none := by
  obtain ⟨c, x⟩ := event
  cases c with
  | request sent =>
    obtain ⟨nodeId, workspaceId, body⟩ := sent
    cases body with
    | remove containerId => rfl
    | _ => exact h.elim
  | _ => rfl

theorem not_loses_of_removal (h : Removal event.1) : ¬ Loses deps compensates w event := by
  obtain ⟨c, x⟩ := event
  cases c with
  | request sent =>
    obtain ⟨nodeId, workspaceId, body⟩ := sent
    cases body with
    | remove containerId => exact id
    | _ => exact h.elim
  | service s =>
    cases s with
    | arrivalOrder n => exact id
    | _ => exact h.elim
  | _ => exact h.elim

theorem asks_requestNode_remove {node : Option MasterNode} {containerId : String} :
    Asks Removal (requestNode node workspaceId (.remove containerId)) := by
  cases node with
  | none => trivial
  | some node =>
    have hcall : Removal (.request ⟨node.nodeId, workspaceId, .remove containerId⟩) := trivial
    exact Asks.ask hcall

theorem asks_undoReplicas : Asks Removal (undoReplicas workspaceId nodes replicas) := by
  have hbatch {tasks : List (Async (Except JsError AgentResponse))}
      (h : ∀ p ∈ tasks, Asks Removal p) : Asks Removal (promiseAll tasks) := by
    have horder : Removal (.service (.arrivalOrder tasks.length)) := trivial
    apply (Asks.ask horder).bind
    intro order
    apply Asks.bind
    · apply Asks.mapEach
      intro i _
      exact (h _ (List.get_mem tasks i)).settle.bind fun _ ↦ Asks.pure
    · intro settled
      split <;> trivial
  apply (hbatch ?_).bind fun _ ↦ Asks.pure
  intro p hp
  obtain ⟨replica, -, rfl⟩ := List.mem_map.mp hp
  exact asks_requestNode_remove.settle

/-- The deletions remove the containers of the replicas and no others. -/
theorem undoReplicas_ends
    (hknown : ∀ replica ∈ replicas, (nodeOf nodes replica.nodeId).isSome)
    (hown : ∀ replica ∈ replicas, ∀ c, w.containers replica.nodeId replica.containerId = some c →
      c.workspaceId = workspaceId) :
    Ends agentsReport (fun _ w' ↦ w'.apps = w.apps ∧ ∀ place : String × String,
      w'.containers place.1 place.2 =
        if place ∈ replicas.map placeOf then none else w.containers place.1 place.2)
      (undoReplicas workspaceId nodes replicas) w := by
  let Undone (served : List AppReplica) (w' : World) : Prop := w'.apps = w.apps ∧
    ∀ place : String × String, w'.containers place.1 place.2 =
      if place ∈ served.map placeOf then none else w.containers place.1 place.2
  unfold undoReplicas
  rw [Ends, wp_bind]
  apply ends_promiseAll_map (J := Undone)
  · intro time
    exact ⟨rfl, fun _ ↦ rfl⟩
  · intro replica hreplica served w' hundone
    obtain ⟨node, hnode⟩ := Option.isSome_iff_exists.mp (hknown replica hreplica)
    rw [Ends, wp_settle, hnode]
    apply ends_request
    intro x hx
    have hperformed : x.performed := hx
    refine ⟨hundone.1, ?_⟩
    intro place
    simp only [hperformed, if_true, SentRequest.perform, Containers.modify_apply, map_append,
      mem_append, map_cons, map_nil, mem_singleton,
      nodeId_of_nodeOf hnode, hundone.2 place]
    by_cases hserved : place ∈ served.map placeOf
    · simp [hserved]
    · by_cases hplace : place = placeOf replica
      · subst hplace
        have howner := hown replica hreplica
        cases hc : w.containers replica.nodeId replica.containerId with
        | none => simp [placeOf, hc]
        | some c => simp [placeOf, hc, howner c hc]
      · have hne : ¬ (place.1 = replica.nodeId ∧ place.2 = replica.containerId) :=
          fun h ↦ hplace (Prod.ext h.1 h.2)
        simp only [if_neg hne, hserved, hplace, or_self]
  · intro served w' r hperm hundone
    have hmem : ∀ place, place ∈ served.map placeOf ↔ place ∈ replicas.map placeOf :=
      fun place ↦ (hperm.map placeOf).mem_iff
    have hpost : w'.apps = w.apps ∧ ∀ place : String × String, w'.containers place.1 place.2 =
        if place ∈ replicas.map placeOf then none else w.containers place.1 place.2 := by
      refine ⟨hundone.1, ?_⟩
      intro place
      rw [hundone.2 place]
      simp only [hmem]
    cases r <;> exact hpost

end Undo

/-! ## The ends of a deployment -/

section Ends

variable {deps : DeploymentDeps} {compensates : Bool} {workspaceId appId : String}
  {nodes : List MasterNode} {w₀ w w' : World} {calls calls' : List (Call × Choice)}
  {replicas : List AppReplica} {lost : List (String × String)}

/-- While no record has changed, no container that was made is accounted for. -/
theorem Made.not_accounted (h : Made workspaceId appId w₀ w calls) {place : String × String}
    (hplace : place ∈ created calls) (happs : w'.apps = w₀.apps)
    (hcontainers : w'.containers place.1 place.2 = w.containers place.1 place.2)
    (hsame : created calls' = created calls) : ¬ Accounted w' calls' := by
  intro haccounted
  obtain ⟨c, hc, hrunning, -, -⟩ := h.standing place hplace
  rw [← hsame] at hplace
  obtain ⟨app, happ, hnames⟩ := haccounted place hplace c (hcontainers.trans hc) hrunning
  rw [World.app_eq_some, happs] at happ
  rw [hsame] at hplace
  exact h.unnamed place hplace app happ.1 hnames

/-- What a call lost stays unaccounted for. -/
theorem Made.balanced_of_lost (h : Made workspaceId appId w₀ w calls)
    (hlost : ∃ event ∈ calls, Loses deps compensates w₀ event) :
    Balanced deps compensates w₀ w calls := by
  by_cases hcreated : created calls = []
  · exact balanced_of_nothing hcreated
  · obtain ⟨place, hplace⟩ := exists_mem_of_ne_nil _ hcreated
    apply iff_of_false
    · exact h.not_accounted hplace h.apps rfl rfl
    · rintro (hnothing | hkept)
      · exact hcreated hnothing
      · obtain ⟨event, hevent, hloses⟩ := hlost
        exact hkept event hevent hloses

/-- The containers that were made run under the app, whose record names them. -/
theorem Made.balanced_of_named (h : Made workspaceId appId w₀ w calls)
    (happ : w'.app appId = some app) (hnames : ∀ place ∈ created calls, Names app place)
    (hcontainers : w'.containers = w.containers) (hcreated : created calls' = [])
    (hkept : ∀ event ∈ calls ++ calls', ¬ Loses deps compensates w₀ event) :
    Balanced deps compensates w₀ w' (calls ++ calls') := by
  apply iff_of_true
  · intro place hplace c hc _
    rw [created_append, hcreated, append_nil] at hplace
    obtain ⟨c', hc', -, happId, -⟩ := h.standing place hplace
    rw [hcontainers, hc', Option.some.injEq] at hc
    subst hc
    exact ⟨app, happId ▸ happ, hnames place hplace⟩
  · exact .inr hkept

/-- After the deletions the lost containers are left, and nothing else. -/
theorem Staged.undone (h : Staged deps compensates workspaceId appId nodes w₀ replicas lost w calls) :
    Traces (cluster agentsReport) (fun _ w' calls' ↦
      Balanced deps compensates w₀ w' (calls ++ calls')) (undoReplicas workspaceId nodes replicas) w := by
  have hown : ∀ replica ∈ replicas, ∀ c,
      w.containers replica.nodeId replica.containerId = some c → c.workspaceId = workspaceId := by
    intro replica hreplica c hc
    have hplace : placeOf replica ∈ created calls := by
      rw [h.places]
      exact mem_append_left _ (List.mem_map_of_mem hreplica)
    obtain ⟨c', hc', -, -, hworkspace⟩ := h.made.standing _ hplace
    rw [placeOf, hc, Option.some.injEq] at hc'
    rw [hc']
    exact hworkspace
  have hruns := (Traces.of_wp (undoReplicas_ends h.known hown)).and
    (asks_undoReplicas.traces (m := cluster agentsReport) w)
  apply hruns.imp
  intro r w' calls' hr
  obtain ⟨⟨happs, hcontainers⟩, hremovals⟩ := hr
  have hnothing : created calls' = [] :=
    filterMap_eq_nil_iff.mpr fun event hevent ↦ createdAt_of_removal (hremovals event hevent)
  have hsame : created (calls ++ calls') = created calls := by
    rw [created_append, hnothing, append_nil]
  by_cases hlost : lost = []
  · subst hlost
    have hplaces := h.places
    rw [append_nil] at hplaces
    apply iff_of_true
    · intro place hplace c hc _
      rw [hsame, hplaces] at hplace
      rw [hcontainers, if_pos hplace] at hc
      cases hc
    · right
      intro event hevent
      obtain hevent | hevent := mem_append.mp hevent
      · exact h.keeps event hevent
      · exact not_loses_of_removal (hremovals event hevent)
  · obtain ⟨place, hplace⟩ := exists_mem_of_ne_nil _ hlost
    have hmade : place ∈ created calls := by
      rw [h.places]
      exact mem_append_right _ hplace
    have hother : place ∉ replicas.map placeOf := by
      have hdistinct := h.made.distinct
      rw [h.places] at hdistinct
      exact fun hreplica ↦ disjoint_of_nodup_append hdistinct hreplica hplace
    apply iff_of_false
    · apply h.made.not_accounted hmade (happs.trans h.made.apps) _ hsame
      rw [hcontainers, if_neg hother]
    · rintro (hnone | hkept)
      · rw [hsame] at hnone
        rw [hnone] at hmade
        cases hmade
      · obtain ⟨event, hevent, hloses⟩ := h.loses.mpr hlost
        exact hkept event (mem_append_left _ hevent) hloses

/-- The write of the record, and the events after it. -/
theorem Staged.recorded {rest : Unit → Async MasterApp}
    (h : Staged deps compensates workspaceId appId nodes w₀ replicas [] w calls)
    (happId : app.appId = appId) (hreplicas : app.replicas = replicas)
    (hrest : ∀ u, Asks Incidental (rest u)) :
    Traces (cluster agentsReport) (fun _ w' calls' ↦
      Balanced deps compensates w₀ w' (calls ++ calls')) (Apps.insertOne app >>= rest) w := by
  have hend (x : Choice) (w₂ : World) (last : List (Call × Choice))
      (hquiet : Quiet (respond (.apps (.insertOne app)) x w).2 w₂)
      (hlast : ∀ event ∈ last, Incidental event.1) :
      Balanced deps compensates w₀ w₂ (calls ++ ((.apps (.insertOne app), x) :: last)) := by
    have hnothing : created ((.apps (.insertOne app), x) :: last) = [] := by
      rw [← created_of_incidental hlast]
      rfl
    have hcontainers : w₂.containers = w.containers := hquiet.containers
    have happs : w₂.apps = (serveStore (.insertOne app) x w.apps).2 := hquiet.apps
    have hloses : Loses deps compensates w₀ (.apps (.insertOne app), x) ↔
        x.fault = .refused ∨ ¬ ((w.apps.docs ++ [app]).flatMap appKeys).Nodup := by
      rw [h.made.apps]
      rfl
    by_cases hlost : x.fault = .refused ∨ ¬ ((w.apps.docs ++ [app]).flatMap appKeys).Nodup
    · rw [serveStore_insertOne_of_clash hlost] at happs
      apply (h.made.frame happs hcontainers hnothing).balanced_of_lost
      exact ⟨_, by simp, hloses.mpr hlost⟩
    · rw [not_or, not_not] at hlost
      rw [serveStore_insertOne_of_unique hlost.1 hlost.2] at happs
      have hstored : w₂.app appId = some app := by
        rw [World.app_eq_some, happs]
        exact ⟨by simp, happId⟩
      apply h.made.balanced_of_named hstored _ hcontainers hnothing
      · intro event hevent
        simp only [mem_append, mem_cons] at hevent
        obtain hevent | rfl | hevent := hevent
        · exact h.keeps event hevent
        · rw [hloses, not_or, not_not]
          exact hlost
        · exact not_loses_of_incidental (hlast event hevent)
      · intro place hplace
        rw [h.places, append_nil, ← hreplicas] at hplace
        obtain ⟨replica, hreplica, rfl⟩ := List.mem_map.mp hplace
        exact ⟨replica, hreplica, rfl, rfl⟩
  apply traces_then (c := .apps (.insertOne app)) hrest
  intro x _ w₂ last hquiet hlast
  exact hend x w₂ last hquiet hlast

end Ends

end Deployment

end PrivosCluster
