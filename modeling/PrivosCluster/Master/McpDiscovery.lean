import PrivosCluster.Agent.ContainerView
import PrivosCluster.AsyncProgram.RelyGuarantee
import PrivosCluster.Master.FailedDeployment

/-!
# Discovery of private MCP containers

A reconcile pass may list the containers of an MCP app at any moment of its installation, before its
record is there, while it awaits its activation and afterwards. A container of the newer protocol is
left alone. One of the older protocol is taken for that of a plain app, unless the record that the
pass finds says otherwise.
-/

namespace PrivosCluster

open AsyncProgram DocumentStore AppLifecycle List Function Option

variable {found : Option MasterApp} {state : ContainerState} {P : Container → Prop}

namespace McpDiscovery

open Agent.DockerStateMapper Reconcile

/-- The operations that install and activate MCP apps, and the pass. -/
inductive InstallTask where
  | reconcile
  | deployMcp (workspaceId : String) (grant : McpDeploymentGrantPayload)
    (deploymentGrantHash : String) (hubIdentity : HubIdentity)
  | deployMcpV3 (workspaceId : String) (grant : McpDeploymentGrantPayloadV3)
    (deploymentGrantHash : String) (hubIdentity : HubIdentity)
  | activateMcp (workspaceId : String) (input : Deployment.McpActivation)
  | activateMcpV3 (workspaceId : String) (input : DeploymentV3.McpV3Activation)

def InstallTask.program (deps : DeploymentDeps) : InstallTask → Async Unit
  | .reconcile => Reconcile.run deps.baseDomain >>= fun _ ↦ .pure ()
  | .deployMcp workspaceId grant deploymentGrantHash hubIdentity =>
    Deployment.deployMcp deps workspaceId grant deploymentGrantHash hubIdentity >>= fun _ ↦ .pure ()
  | .deployMcpV3 workspaceId grant deploymentGrantHash hubIdentity =>
    DeploymentV3.deployMcpV3 deps workspaceId grant deploymentGrantHash hubIdentity >>= fun _ ↦
      .pure ()
  | .activateMcp workspaceId input =>
    Deployment.activateMcp workspaceId input >>= fun _ ↦ .pure ()
  | .activateMcpV3 workspaceId input =>
    DeploymentV3.activateMcpV3 deps workspaceId input >>= fun _ ↦ .pure ()

def installation {ι : Type} (deps : DeploymentDeps) (tasks : ι → InstallTask) (w : World) :
    Pool signature JsError World ι :=
  ⟨fun i ↦ (tasks i).program deps, w⟩

/-! ## What a pass has in hand -/

/-- The containers of a listing still to look at, and the one whose record was looked up last. -/
structure Survey where
  pending : List Container
  looked : Option (Container × Option MasterApp)

def Survey.empty : Survey := ⟨[], none⟩

def survey (note : Survey) : (c : Call) → Except JsError c.Answer → Survey
  | .request ⟨_, _, .listApps⟩, .ok response =>
    ⟨if 300 ≤ response.status then [] else response.body.containers, none⟩
  | .request ⟨_, _, .listApps⟩, .error _ => Survey.empty
  | .apps (.findOne _), .ok app => ⟨note.pending.tail, note.pending.head?.map (·, app)⟩
  | .apps (.findOne _), .error _ => ⟨note.pending.tail, none⟩
  | _, _ => note

/-- The pass leaves the container to the installation that it belongs to. -/
def leftAlone (container : Container) (app : MasterApp) : Bool :=
  app.state == .quarantined || container.mcpV3 || app.kind == some .mcpV3 ||
    app.replicas.any (·.containerId == container.id)

/-- The calls of a pass, by what it has in hand. -/
inductive Discovers (note : Survey) : Call → Prop where
  | elsewhere {c : Call} (spares : ∀ op, c ≠ .apps op) : Discovers note c
  | looksUp {container : Container} {rest : List Container} (filter : MasterApp → Bool)
    (next : note.pending = container :: rest) : Discovers note (.apps (.findOne filter))
  | recordsOom (filter : MasterApp → Bool) (killedAt : Time) :
    Discovers note (.apps (.updateOne filter (oomKilledAs killedAt)))
  | adopts {container : Container} {app : MasterApp} (filter : MasterApp → Bool)
    (nodeId replicaId : String) (time : Time) (looked : note.looked = some (container, some app))
    (unknown : leftAlone container app = false) :
    Discovers note (.apps (.updateOne filter (adoptedAs nodeId replicaId container time)))
  | reconstructs {container : Container} (filter : MasterApp → Bool)
    (baseDomain workspaceId nodeId replicaId : String) (time : Time)
    (looked : note.looked = some (container, none)) (plain : container.mcpV3 = false)
    (complete : reconstructible container = true) :
    Discovers note (.apps (.upsertOne filter id
      (reconstruct baseDomain workspaceId nodeId replicaId container time)))

/-- The contract of a pass among installations, which may do as they like. -/
def discovering {ι : Type} (tasks : ι → InstallTask) (i : ι) :
    Contract signature JsError World Choice Survey where
  track := survey
  assumes _ _ _ := True
  rely _ _ _ := True
  ensures note c _ _ := tasks i = .reconcile → Discovers note c
  rely_refl _ _ := trivial
  rely_trans _ _ _ _ _ _ := trivial

/-- A call that neither goes to the app records nor asks for a listing. -/
def Aside : Call → Prop
  | .apps _ => False
  | .request ⟨_, _, .listApps⟩ => False
  | _ => True

theorem survey_aside {note : Survey} {c : Call} (h : Aside c) (r : Except JsError c.Answer) :
    survey note c r = note := by
  unfold survey
  split
  · exact h.elim
  · exact h.elim
  · exact h.elim
  · exact h.elim
  · rfl

/-- A call of a pass that takes nothing new in hand. -/
structure Steady (note : Survey) (c : Call) : Prop where
  discovers : Discovers note c
  unchanged : ∀ r, survey note c r = note

theorem Steady.of_aside {note : Survey} {c : Call} (h : Aside c) : Steady note c := by
  have hdiscovers : Discovers note c := by
    apply Discovers.elsewhere
    rintro op rfl
    exact h
  exact ⟨hdiscovers, survey_aside h⟩

/-! ## The calls of a pass -/

section Calls

variable {ι α : Type} {tasks : ι → InstallTask} {i : ι} {law : Law} {note : Survey} {w : World}
  {baseDomain workspaceId : String} {node : MasterNode} {container : Container}
  {rest : List Container}

theorem among_steady {p : Async α} (hp : Asks (Steady note) p) :
    Among (cluster law) (discovering tasks i) (fun _ note' _ ↦ note' = note) p note w := by
  apply Among.keeps hp
  · exact fun _ _ _ _ hnote ↦ hnote
  · rintro _ c x w hc _ _ rfl
    exact ⟨fun _ ↦ hc.discovers, hc.unchanged _⟩
  · rfl

theorem steady_ask {c : Call} (h : Aside c) : Asks (Steady note) (awaitCall c) :=
  Asks.ask (.of_aside h)

theorem steady_stopQuarantined {containerId : String} :
    Asks (Steady note) (stopQuarantined workspaceId node containerId) := by
  have hstop : Asks (Steady note) (request node workspaceId (.power containerId .stop)) :=
    steady_ask trivial
  exact hstop.settle.bind fun _ ↦ .pure

theorem steady_seedLifecycle {appId nodeId : String} :
    Asks (Steady note) (seedLifecycle workspaceId appId nodeId container) := by
  have hevent (filter : AppLifecycleEvent → Bool) (fresh : AppLifecycleEvent) :
      Asks (Steady note) (LifecycleEvents.upsertOne filter fresh) := steady_ask trivial
  apply Asks.onlyIf
  exact (hevent _ _).bind fun _ ↦ .pure

theorem steady_now : Asks (Steady note) now := steady_ask trivial

theorem steady_randomUUID : Asks (Steady note) randomUUID := steady_ask trivial

theorem steady_recordOom {app : Option MasterApp} :
    Asks (Steady note) (recordOom workspaceId app container) := by
  unfold recordOom
  split
  · apply Asks.onlyIf
    have hupdate (filter : MasterApp → Bool) (killedAt : Time) :
        Asks (Steady note) (Apps.updateOne filter (oomKilledAs killedAt)) :=
      Asks.ask ⟨.recordsOom filter killedAt, fun _ ↦ rfl⟩
    exact (hupdate _ _).bind fun _ ↦ .pure
  · exact .pure

theorem steady_adopt {app : MasterApp} (hlooked : note.looked = some (container, some app))
    (hunknown : leftAlone container app = false) :
    Asks (Steady note) (adopt workspaceId node.nodeId container) := by
  apply steady_randomUUID.bind
  intro replicaId
  apply steady_now.bind
  intro time
  have hupdate (filter : MasterApp → Bool) : Asks (Steady note)
      (Apps.updateOne filter (adoptedAs node.nodeId replicaId container time)) :=
    Asks.ask ⟨.adopts filter node.nodeId replicaId time hlooked hunknown, fun _ ↦ rfl⟩
  exact (hupdate _).bind fun _ ↦ steady_seedLifecycle

theorem steady_insertReconstructed (hlooked : note.looked = some (container, none))
    (hplain : container.mcpV3 = false) (hcomplete : reconstructible container) :
    Asks (Steady note) (insertReconstructed baseDomain workspaceId node.nodeId container) := by
  apply steady_now.bind
  intro time
  apply steady_randomUUID.bind
  intro replicaId
  have hupsert (filter : MasterApp → Bool) : Asks (Steady note) (Apps.upsertOne filter id
      (reconstruct baseDomain workspaceId node.nodeId replicaId container time)) :=
    Asks.ask ⟨.reconstructs filter _ _ _ _ time hlooked hplain hcomplete, fun _ ↦ rfl⟩
  exact (hupsert _).bind fun _ ↦ steady_seedLifecycle

/-- What is done about a container once its record has been looked up. -/
theorem steady_afterLookup (hlooked : note.looked = some (container, found)) :
    Asks (Steady note) (do
      if found.any (·.state == .quarantined) then
        Program.onlyIf (container.state = .running) (stopQuarantined workspaceId node container.id)
        .pure 0
      else if container.mcpV3 ∨ found.any (·.kind == some .mcpV3) then
        recordOom workspaceId found container
        .pure 0
      else
        match found with
        | some app =>
          if app.replicas.any (·.containerId == container.id) then .pure 0
          else
            adopt workspaceId node.nodeId container
            .pure 1
        | none =>
          if !reconstructible container then .pure 0
          else
            insertReconstructed baseDomain workspaceId node.nodeId container
            .pure 1 : Async Nat) := by
  by_cases hquarantined : found.any (·.state == .quarantined)
  · rw [if_pos hquarantined]
    exact (Asks.onlyIf steady_stopQuarantined).bind fun _ ↦ .pure
  · rw [if_neg hquarantined]
    by_cases hmcpV3 : container.mcpV3 ∨ found.any (·.kind == some .mcpV3)
    · rw [if_pos hmcpV3]
      exact steady_recordOom.bind fun _ ↦ .pure
    · rw [if_neg hmcpV3]
      obtain ⟨hplain, hkind⟩ := not_or.mp hmcpV3
      cases found with
      | none =>
        dsimp only
        split
        · exact .pure
        next hcomplete =>
          have hcomplete : reconstructible container := by simpa using hcomplete
          have hinsert : Asks (Steady note)
              (insertReconstructed baseDomain workspaceId node.nodeId container) :=
            steady_insertReconstructed hlooked (by simpa using hplain) hcomplete
          exact hinsert.bind fun _ ↦ .pure
      | some app =>
        dsimp only
        split
        · exact .pure
        next hunknown =>
          have hunknown : leftAlone container app = false := by
            simp only [Option.any_some, Bool.not_eq_true] at hquarantined hplain hkind hunknown
            simp only [leftAlone, hquarantined, hplain, hkind, hunknown, Bool.or_false]
          exact (steady_adopt hlooked hunknown).bind fun _ ↦ .pure

theorem reconcileContainer_among (hpending : note.pending = container :: rest) :
    Among (cluster law) (discovering tasks i) (fun _ note' _ ↦ note'.pending = rest)
      (reconcileContainer baseDomain workspaceId node container) note w := by
  apply Among.bind (R := onExit (fun found note' _ ↦ note' = ⟨rest, some (container, found)⟩)
    fun _ note' _ ↦ note'.pending = rest)
  · intro w' _ x _ _
    refine ⟨fun _ ↦ .looksUp _ hpending, ?_⟩
    cases hanswer : ((cluster law).respond (.apps (.findOne _)) x w').1 with
    | ok found => simp [discovering, survey, hpending]
    | error e => simp [discovering, survey, hpending]
  · rintro found _ w' rfl
    apply (among_steady (steady_afterLookup rfl)).imp
    rintro r _ w'' rfl
    rfl
  · exact fun _ _ _ hrest ↦ hrest

theorem reconcileListing_among {containers : List Container} (counts : Counts)
    (hpending : note.pending = containers) :
    Among (cluster law) (discovering tasks i) (fun _ _ _ ↦ True)
      (reconcileListing baseDomain workspaceId node counts containers) note w := by
  induction containers generalizing counts note w with
  | nil => trivial
  | cons container rest ih =>
    apply Among.bind (R := onExit (fun _ note' _ ↦ note'.pending = rest) fun _ _ _ ↦ True)
    · apply Among.settle
      exact (reconcileContainer_among hpending).imp fun _ _ _ hrest ↦ hrest
    · intro outcome note' w' hrest
      cases outcome with
      | ok repaired => exact ih _ hrest
      | error e => trivial
    · exact fun _ _ _ _ ↦ trivial

theorem reconcileNode_among (counts : Counts) :
    Among (cluster law) (discovering tasks i) (fun _ _ _ ↦ True)
      (reconcileNode baseDomain workspaceId counts node) note w := by
  have hlisting : Among (cluster law) (discovering tasks i)
      (onExit (fun response note' _ ↦ note'.pending =
        if 300 ≤ response.status then [] else response.body.containers) fun _ _ _ ↦ True)
      (request node workspaceId .listApps) note w := by
    intro w' _ x _ _
    refine ⟨fun _ ↦ .elsewhere (fun _ h ↦ nomatch h), ?_⟩
    cases hanswer : ((cluster law).respond
      (.request ⟨node.nodeId, workspaceId, .listApps⟩) x w').1 with
    | ok response => rfl
    | error e => trivial
  apply Among.bind (R := onExit (fun outcome ↦ onExit (fun response note' _ ↦ note'.pending =
    if 300 ≤ response.status then [] else response.body.containers) (fun _ _ _ ↦ True) outcome)
    fun _ _ _ ↦ True) hlisting.settle
  · intro outcome note' w' hpending
    cases outcome with
    | error e => trivial
    | ok response =>
      dsimp only
      split
      · trivial
      next hstatus =>
        have hcontainers : note'.pending = response.body.containers :=
          Eq.trans hpending (if_neg hstatus)
        exact reconcileListing_among counts hcontainers
  · exact fun _ _ _ _ ↦ trivial

theorem run_among : Among (cluster law) (discovering tasks i) (fun _ _ _ ↦ True)
    (Reconcile.run baseDomain) note w := by
  have hworkspaces : Asks (Steady note) (Workspaces.find enumeratedWorkspace) := steady_ask trivial
  have hnodes : Asks (Steady note) (Nodes.find enumeratedNode) := steady_ask trivial
  have henumerate := Deployment.asks_promiseBoth (Steady.of_aside trivial) hworkspaces hnodes
  apply (among_steady henumerate).bind
  · rintro ⟨workspaces, nodes⟩ note' w' _
    apply Among.imp (Q := onExit (fun _ _ _ ↦ True) fun _ _ _ ↦ True)
    · apply Among.foldEach (I := fun _ _ _ ↦ True)
      · intro _ workspace _ counts note' w' _ _
        apply Among.foldEach (I := fun _ _ _ ↦ True)
        · intro _ node _ counts note' w' _ _
          apply (reconcileNode_among counts).imp
          rintro (_ | _) _ _ _ <;> trivial
        · trivial
      · trivial
    · exact fun _ _ _ _ ↦ trivial
  · exact fun _ _ _ _ ↦ trivial

end Calls

/-! ## What comes of a private container -/

/-- A container as the agent maps it, whose labels carry a binding of this schema. -/
def Binds (schema : String) (container : Container) : Prop :=
  ∃ platform facts oomKilledAt,
    container = buildContainer platform facts oomKilledAt ∧ schemaOf facts.labels = some schema

theorem Binds.mcpV3 {container : Container} (h : Binds "3" container) : container.mcpV3 := by
  obtain ⟨platform, facts, oomKilledAt, rfl, hschema⟩ := h
  exact buildContainer_mcpV3.mpr hschema

/-- A step that makes no record without a kind and sets no record to RUNNING. -/
structure Restrained (c : Call) (w w' : World) : Prop where
  kinds : ∀ app ∈ w'.apps.docs, app.kind = none →
    ∃ app₀ ∈ w.apps.docs, app₀.appId = app.appId ∧ app₀.kind = none
  states : ∀ app ∈ w'.apps.docs, app.state = .running →
    ∃ app₀ ∈ w.apps.docs, app₀.appId = app.appId ∧ app₀.state = .running
  /-- An update that meets a record does not leave every record RUNNING. -/
  writes : ∀ filter update, c = .apps (.updateOne filter update) →
    (∃ app ∈ w.apps.docs, filter app = true) → ∃ app, (update app).state ≠ .running

/-- What was found for the container keeps the pass from taking it for one of a plain app. -/
def Recognized (container : Container) : Option MasterApp → Prop
  | none => reconstructible container = false
  | some app => leftAlone container app = true ∨ container.state ≠ .running

section Steps

variable {note : Survey} {c : Call} {x : Choice} {w : World}

theorem restrained_of_apps {w' : World} (happs : w'.apps.docs = w.apps.docs)
    (hc : ∀ filter update, c ≠ .apps (.updateOne filter update)) : Restrained c w w' where
  kinds app happ hkind := ⟨app, happs ▸ happ, rfl, hkind⟩
  states app happ hstate := ⟨app, happs ▸ happ, rfl, hstate⟩
  writes filter update h := (hc filter update h).elim

/-- An update that keeps ids and kinds, and sets no record to RUNNING. -/
theorem restrained_updateOne {filter : MasterApp → Bool} {update : MasterApp → MasterApp}
    (hid : ∀ app, (update app).appId = app.appId) (hkind : ∀ app, (update app).kind = app.kind)
    (hstate : ∀ app, (update app).state = .running → app.state = .running)
    (hwrites : MasterApp → ∃ app, (update app).state ≠ .running) :
    Restrained (.apps (.updateOne filter update)) w
      (respond (.apps (.updateOne filter update)) x w).2 where
  kinds app happ hnone := by
    obtain hbefore | ⟨app₀, hbefore, -, rfl⟩ := mem_serveStore happ
    · exact ⟨app, hbefore, rfl, hnone⟩
    · exact ⟨app₀, hbefore, (hid app₀).symm, (hkind app₀).symm.trans hnone⟩
  states app happ hrunning := by
    obtain hbefore | ⟨app₀, hbefore, -, rfl⟩ := mem_serveStore happ
    · exact ⟨app, hbefore, rfl, hrunning⟩
    · exact ⟨app₀, hbefore, (hid app₀).symm, hstate app₀ hrunning⟩
  writes filter' update' hc hmet := by
    obtain ⟨app, -, -⟩ := hmet
    cases hc
    exact hwrites app

theorem toUpperCase_eq_running : state.toUpperCase = .running ↔ state = .running := by
  cases state <;> decide

theorem respond_apps_of_spares (hc : ∀ op, c ≠ .apps op) : (respond c x w).2.apps = w.apps := by
  cases c with
  | apps op => exact (hc op rfl).elim
  | _ => rfl

/-- One call of a pass that has such a container in hand. -/
theorem restrained_of_discovers (h : Discovers note c)
    (hrecognized : ∀ container found, note.looked = some (container, found) →
      container.mcpV3 ∨ Recognized container found) :
    Restrained c w (respond c x w).2 := by
  cases h with
  | elsewhere spares =>
    apply restrained_of_apps
    · rw [respond_apps_of_spares spares]
    · exact fun filter update ↦ spares _
  | looksUp filter next =>
    apply restrained_of_apps
    · exact congrArg _ (serveStore_of_isRead trivial)
    · exact nofun
  | recordsOom filter killedAt =>
    apply restrained_updateOne
    · exact fun _ ↦ rfl
    · exact fun _ ↦ rfl
    · exact fun _ hrunning ↦ hrunning
    · exact fun app ↦ ⟨{ app with state := .stopped }, fun h ↦ nomatch h⟩
  | @adopts container app filter nodeId replicaId time looked unknown =>
    have hstopped : container.state ≠ .running := by
      obtain hmcpV3 | hleft | hstopped := hrecognized container (some app) looked
      · simp [leftAlone, hmcpV3] at unknown
      · exact absurd hleft (by simp [unknown])
      · exact hstopped
    have hstate : ∀ app,
        (adoptedAs nodeId replicaId container time app).state ≠ AppState.running :=
      fun _ hrunning ↦ hstopped (toUpperCase_eq_running.mp hrunning)
    apply restrained_updateOne
    · exact fun _ ↦ rfl
    · exact fun _ ↦ rfl
    · exact fun app hrunning ↦ (hstate app hrunning).elim
    · exact fun app ↦ ⟨app, hstate app⟩
  | reconstructs filter baseDomain workspaceId nodeId replicaId time looked plain complete =>
    obtain hmcpV3 | hincomplete := hrecognized _ none looked
    · exact absurd hmcpV3 (by simp [plain])
    · exact absurd (complete.symm.trans hincomplete) (by decide)

end Steps

/-! ## Runs -/

section Runs

variable {ι : Type} {deps : DeploymentDeps} {tasks : ι → InstallTask} {law : Law} {w : World}

theorem installation_stands {J : (ι → Survey) → World → Prop} (hJ : J (fun _ ↦ Survey.empty) w) :
    (installation deps tasks w).Stands (cluster law) (discovering tasks) (fun _ _ _ _ ↦ True) J
      fun _ ↦ Survey.empty where
  joint := hJ
  threads i := by
    by_cases hpass : tasks i = .reconcile
    · have hprogram : (installation deps tasks w).threads i =
          Reconcile.run deps.baseDomain >>= fun _ ↦ .pure () := by
        simp only [installation, hpass]
        rfl
      rw [hprogram]
      apply run_among.bind
      · exact fun _ _ _ _ ↦ trivial
      · exact fun _ _ _ _ ↦ trivial
    · exact Among.of_asks (Asks.any _) fun _ _ _ _ _ _ _ h ↦ (hpass h).elim

variable [DecidableEq ι]

/-- A statement about every lookup of a pass that is answered in the course of these events. -/
def AtLookups (law : Law) (deps : DeploymentDeps) (tasks : ι → InstallTask) (w : World)
    (events : List (Event signature Choice ι)) (P : Container → Option MasterApp → Prop) : Prop :=
  ∀ earlier e later notes pool, events = earlier ++ e :: later →
    Pool.Noted (cluster law) (discovering tasks) (fun _ ↦ Survey.empty) (installation deps tasks w)
      earlier notes pool → tasks e.thread = .reconcile →
    ∀ filter container rest, e.call = .apps (.findOne filter) → e.choice.fault = .none →
      (notes e.thread).pending = container :: rest →
        P container (pool.state.apps.docs.find? filter)

/-- A statement about every step of a pass that has a container in hand. -/
def AtPassSteps (law : Law) (deps : DeploymentDeps) (tasks : ι → InstallTask) (w : World)
    (events : List (Event signature Choice ι)) (P : Container → Call → World → World → Prop) :
    Prop :=
  ∀ earlier e later notes pool pool', events = earlier ++ e :: later →
    Pool.Noted (cluster law) (discovering tasks) (fun _ ↦ Survey.empty) (installation deps tasks w)
      earlier notes pool →
    Pool.Step (cluster law) pool e pool' → tasks e.thread = .reconcile →
    ∀ container found, (notes e.thread).looked = some (container, found) →
      P container e.call pool.state pool'.state

/-- What the passes have in hand was recognized when they looked it up. -/
def AllRecognized (tasks : ι → InstallTask) (notes : ι → Survey) : Prop :=
  ∀ i, tasks i = .reconcile → ∀ container found, (notes i).looked = some (container, found) →
    Binds "2" container → Recognized container found

/-- The lookups of passes recognize the containers of the older protocol. -/
def Looking (tasks : ι → InstallTask) (notes : ι → Survey) (i : ι) (c : Call) (x : Choice)
    (w : World) : Prop :=
  tasks i = .reconcile → ∀ filter container rest, c = .apps (.findOne filter) → x.fault = .none →
    (notes i).pending = container :: rest → Binds "2" container →
      Recognized container (w.apps.docs.find? filter)

/-- What a call puts in hand has been there before, or was looked up by this very call. -/
theorem survey_looked {note : Survey} {c : Call} {x : Choice} {container : Container}
    (h : (survey note c (respond c x w).1).looked = some (container, found)) :
    note.looked = some (container, found) ∨ ∃ filter rest, c = .apps (.findOne filter) ∧
      x.fault = .none ∧ note.pending = container :: rest ∧
        found = w.apps.docs.find? filter := by
  cases c with
  | apps op =>
    cases op with
    | findOne filter =>
      cases hanswer : (respond (.apps (.findOne filter)) x w).1 with
      | error e =>
        rw [hanswer] at h
        cases h
      | ok app =>
        rw [hanswer] at h
        obtain ⟨first, hfirst, hpair⟩ := Option.map_eq_some_iff.mp h
        obtain ⟨rfl, rfl⟩ := Prod.mk.inj hpair
        obtain ⟨rest, hpending⟩ := head?_eq_some_iff.mp hfirst
        simp only [respond, serveStore_findOne] at hanswer
        split at hanswer
        next hfault =>
          exact .inr ⟨filter, rest, rfl, hfault, hpending, (Except.ok.inj hanswer).symm⟩
        · cases hanswer
    | _ => exact .inl h
  | request sent =>
    obtain ⟨nodeId, workspaceId, body⟩ := sent
    cases body with
    | listApps =>
      cases hanswer : (respond (.request ⟨nodeId, workspaceId, .listApps⟩) x w).1 with
      | error e =>
        rw [hanswer] at h
        cases h
      | ok response =>
        rw [hanswer] at h
        cases h
    | _ => exact .inl h
  | _ => exact .inl h

theorem discovering_team : TeamUnder (cluster law) (discovering tasks) (fun _ _ _ _ ↦ True)
    (fun notes _ ↦ AllRecognized tasks notes) (Looking tasks) where
  stable _ _ _ _ _ _ _ := trivial
  assumes _ _ _ _ _ _ _ := trivial
  fits _ _ _ _ _ _ _ _ _ _ _ := trivial
  keeps notes s i c x hnotes _ hlooking _ := by
    intro j hpass container found hlooked hbinds
    by_cases hij : j = i
    · subst hij
      rw [update_self] at hlooked
      obtain hbefore | ⟨filter, rest, hc, hfault, hpending, hfound⟩ := survey_looked hlooked
      · exact hnotes j hpass container found hbefore hbinds
      · rw [hfound]
        exact hlooking hpass filter container rest hc hfault hpending hbinds
    · rw [update_of_ne hij] at hlooked
      exact hnotes j hpass container found hlooked hbinds

/-- Without an account of what was found the contracts fit together all the same. -/
theorem anywhere_team : TeamUnder (cluster law) (discovering tasks) (fun _ _ _ _ ↦ True)
    (fun _ _ ↦ True) fun _ _ _ _ _ ↦ True where
  stable _ _ _ _ _ _ _ := trivial
  assumes _ _ _ _ _ _ _ := trivial
  fits _ _ _ _ _ _ _ _ _ _ _ := trivial
  keeps _ _ _ _ _ _ _ _ _ := trivial

/-- The calls of a pass in any run. -/
theorem discovers_of_noted {events : List (Event signature Choice ι)} {notes : ι → Survey}
    {pool pool' : Pool signature JsError World ι} {e : Event signature Choice ι}
    (noted : Pool.Noted (cluster law) (discovering tasks) (fun _ ↦ Survey.empty)
      (installation deps tasks w) events notes pool)
    (step : Pool.Step (cluster law) pool e pool') (hpass : tasks e.thread = .reconcile) :
    Discovers (notes e.thread) e.call := by
  have hstands := noted.together anywhere_team (fun _ _ _ _ _ _ _ _ ↦ trivial)
    (installation_stands trivial)
  obtain ⟨hnext, hx⟩ := step
  rename_i i c x k
  have hthread := hstands.threads i
  rw [hnext] at hthread
  exact (hthread _ trivial x hx trivial).1 hpass

/-- What the agents list in the course of these events. -/
def Lists (events : List (Event signature Choice ι)) (P : Container → Prop) : Prop :=
  ∀ e ∈ events, ∀ response, e.choice.answer = some response →
    ∀ container ∈ response.body.containers, P container

/-- What a pass has in hand comes from the listings. -/
structure Survey.Holds (P : Container → Prop) (note : Survey) : Prop where
  pending : ∀ container ∈ note.pending, P container
  looked : ∀ container found, note.looked = some (container, found) → P container

theorem Survey.Holds.survey {note : Survey} (h : note.Holds P) {c : Call} {x : Choice} {w : World}
    (hlists : ∀ response, x.answer = some response → ∀ container ∈ response.body.containers,
      P container) : (survey note c (respond c x w).1).Holds P where
  looked container found hlooked := by
    obtain hbefore | ⟨filter, rest, -, -, hpending, -⟩ := survey_looked hlooked
    · exact h.looked container found hbefore
    · exact h.pending container (by simp [hpending])
  pending container hcontainer := by
    cases c with
    | apps op =>
      cases op with
      | findOne filter =>
        cases hanswer : (respond (.apps (.findOne filter)) x w).1 with
        | error e | ok app =>
          rw [hanswer] at hcontainer
          exact h.pending container (mem_of_mem_tail hcontainer)
      | _ => exact h.pending container hcontainer
    | request sent =>
      obtain ⟨nodeId, workspaceId, body⟩ := sent
      cases body with
      | listApps =>
        cases hanswer : x.answer with
        | none =>
          simp only [respond, hanswer] at hcontainer
          cases hcontainer
        | some response =>
          simp only [respond, hanswer, McpDiscovery.survey] at hcontainer
          split at hcontainer
          · cases hcontainer
          · exact hlists response hanswer container hcontainer
      | _ => exact h.pending container hcontainer
    | _ => exact h.pending container hcontainer

theorem holds_of_noted {events : List (Event signature Choice ι)} {notes : ι → Survey}
    {pool : Pool signature JsError World ι}
    (noted : Pool.Noted (cluster law) (discovering tasks) (fun _ ↦ Survey.empty)
      (installation deps tasks w) events notes pool) (hlists : Lists events P) :
    ∀ i, (notes i).Holds P := by
  induction noted with
  | start => exact fun _ ↦ ⟨(fun _ h ↦ nomatch h), fun _ _ h ↦ nomatch h⟩
  | @step events notes' pool' pool'' e run last ih =>
    have hbefore := ih fun e' he' ↦ hlists e' (mem_append_left _ he')
    intro j
    by_cases hj : j = e.thread
    · subst hj
      rw [update_self]
      exact (hbefore e.thread).survey (hlists e (by simp))
    · rw [update_of_ne hj]
      exact hbefore j

end Runs

/--
In every run of reconcile passes among installations and activations, no step that a pass takes
because of a container with an MCP binding makes a record without a kind or sets one to RUNNING, if
at each lookup for a container of the older schema what is found shows that it is no plain app.
-/
theorem restrained_of_recognized {ι : Type} [DecidableEq ι] (law : Law) (deps : DeploymentDeps)
    (tasks : ι → InstallTask) (w : World) (events : List (Event signature Choice ι))
    (h : AtLookups law deps tasks w events fun container found ↦
      Binds "2" container → Recognized container found) :
    AtPassSteps law deps tasks w events fun container c w w' ↦
      Binds "2" container ∨ Binds "3" container → Restrained c w w' := by
  intro earlier e later notes pool pool' hsplit noted step hpass container found hlooked hbinds
  have hstart : AllRecognized tasks fun _ ↦ Survey.empty := fun _ _ _ _ h ↦ nomatch h
  have hstands := noted.together discovering_team
    (fun before e' after pool₁ notes₁ hbefore hnoted _ ↦
      h before e' (after ++ e :: later) notes₁ pool₁ (by simp [hsplit, hbefore]) hnoted)
    (installation_stands hstart)
  have hdiscovers := discovers_of_noted noted step hpass
  obtain ⟨hnext, hx⟩ := step
  rename_i i c x k
  apply restrained_of_discovers hdiscovers
  intro container' found' hlooked'
  obtain ⟨rfl, rfl⟩ : container = container' ∧ found = found' := by
    simpa using hlooked.symm.trans hlooked'
  rcases hbinds with hbinds | hbinds
  · exact .inr (hstands.joint i hpass container found hlooked hbinds)
  · exact .inl hbinds.mcpV3

namespace Sample

def platform : Agent.AgentPlatform where
  number _ := none
  numberText _ := ""
  sha256Hex _ := ""
  toISOString _ := none
  parseDate _ := none
  now := 0

def grant : McpDeploymentGrantPayload where
  clusterId := "cluster"
  workspaceId := "acme"
  installationId := "installation"
  mcpAppId := "notes"
  receiptHash := "receipt"
  grantEpoch := 1
  hubOrigin := "https://hub.test"
  deployment :=
    { appId := "notes", listingId := "listing", versionDigest := PrivosCluster.Sample.digest 'a',
      image := "registry/notes", imageDigest := PrivosCluster.Sample.digest 'b',
      manifestDigest := PrivosCluster.Sample.digest 'c', port := 3001, resources := ⟨256, 1, 64⟩,
      envVars := [], volumes := [], availabilityTier := .single, stateless := true,
      subdomain := some "notes" }

/-- The labels that the agent gives to the container, as far as the mapping reads them. -/
def labels : Agent.Labels :=
  [("privos.id", "fresh"), ("privos.app-id", "notes"), ("privos.image", "registry/notes"),
    ("privos.image.digest", PrivosCluster.Sample.digest 'b'), ("privos.listing", "listing"),
    ("privos.version.digest", PrivosCluster.Sample.digest 'a'), ("privos.port", "3001"),
    ("privos.subdomain", "notes"), ("privos.created-at", "1"), ("privos.mcp.schema", "2")]

/-- The label of the version is still missing. -/
def unversioned : Agent.Labels := labels.filter fun label ↦ label.1 ≠ "privos.version.digest"

def facts (labels : Agent.Labels) (state : ContainerState) : DockerFacts where
  labels := labels
  dockerContainerId := "docker"
  imageRef := "registry/notes:latest"
  state := state
  createdFallbackMs := 0
  mounts := []

def container (labels : Agent.Labels) (state : ContainerState) : Container :=
  buildContainer platform (facts labels state) none

/-- The fleet before anything is installed. -/
def world : World :=
  { PrivosCluster.Sample.world (PrivosCluster.Sample.app none .running none)
    PrivosCluster.Sample.nodup_running with
    apps := ⟨[], List.nodup_nil⟩ }

/-- Every request succeeds, and a listing shows this container. -/
def answered (listed : Container) : Call → World → Choice
  | .request ⟨_, _, .listApps⟩, _ => { answer := some ⟨200, { containers := [listed] }⟩ }
  | .request ⟨_, _, .mcpDeploy _ _⟩, _ =>
    { answer := some ⟨201, { id := some "fresh", state := some "running" }⟩
      containerId := "fresh" }
  | _, _ => {}

instance (c : Call) (x : Choice) (w : World) : Decidable ((cluster LockFree).permits c x w) :=
  match c with
  | .acquire workspaceId => inferInstanceAs (Decidable (workspaceId ∉ w.locks))
  | .apps _ | .nodes _ | .workspaces _ | .runtimeResourceInventories _ | .lifecycleEvents _
  | .request _ | .service _ | .release _ => .isTrue trivial

/-- An app is being installed, and a pass runs. -/
def tasks (i : Fin 2) : InstallTask :=
  if i = 0 then .deployMcp "acme" grant "grant" ⟨"hub", ⟨"OKP", "Ed25519", "key", "", none⟩⟩
  else .reconcile

/-- The installation up to the answer of the agent, and the pass up to its lookup and beyond. -/
def overlooked : List (Event signature Choice (Fin 2)) × Pool signature JsError World (Fin 2) :=
  Pool.play (cluster LockFree) (answered (container labels .running))
    (List.replicate 11 0 ++ List.replicate 7 1)
    (installation PrivosCluster.Sample.deploymentDeps tasks world)

/-- The write of the pass. -/
def overlooking : List (Event signature Choice (Fin 2)) × Pool signature JsError World (Fin 2) :=
  Pool.play (cluster LockFree) (answered (container labels .running)) [1] overlooked.2

/-- A pass over a container that is being made. -/
def passing : List (Event signature Choice (Fin 2)) × Pool signature JsError World (Fin 2) :=
  Pool.play (cluster LockFree) (answered (container unversioned .created)) (List.replicate 5 1)
    (installation PrivosCluster.Sample.deploymentDeps tasks world)

theorem lists_of_play {listed : Container} (h : P listed) {schedule : List (Fin 2)}
    {pool : Pool signature JsError World (Fin 2)} :
    Lists (Pool.play (cluster LockFree) (answered listed) schedule pool).1 P := by
  intro e he response hresponse entry hentry
  obtain ⟨w, hchoice⟩ := Pool.choice_of_play he
  rw [hchoice] at hresponse
  unfold answered at hresponse
  split at hresponse
  · obtain rfl := some.inj hresponse
    obtain rfl := mem_singleton.mp hentry
    exact h
  · obtain rfl := some.inj hresponse
    cases hentry
  · obtain rfl := some.inj hresponse
    cases hentry

theorem binds {labels : Agent.Labels} (h : schemaOf labels = some "2") :
    Binds "2" (container labels state) := ⟨platform, facts labels state, none, rfl, h⟩

def isUpsert : Call → Bool
  | .apps (.upsertOne _ _ _) => true
  | _ => false

theorem not_isUpsert {c : Call} (h : ∀ op, c ≠ .apps op) : ¬ isUpsert c := by
  cases c with
  | apps op => exact (h op rfl).elim
  | _ => exact nofun

/-- A container that is neither running nor complete. -/
structure Incomplete (container : Container) : Prop where
  incomplete : reconstructible container = false
  stopped : container.state ≠ .running

theorem Incomplete.recognized {container : Container} (h : Incomplete container)
    (found : Option MasterApp) : Recognized container found := by
  cases found with
  | none => exact h.incomplete
  | some app => exact .inr h.stopped

end Sample

theorem overlooked_empty : Sample.overlooked.2.state.apps.docs.length = 0 := by decide +kernel

theorem overlooking_running : Sample.overlooking.2.state.apps.docs.map (fun app ↦
    (app.appId, app.kind, app.state)) = [("notes", none, .running)] := by
  decide +kernel

/-- A record that nobody has asked for says that the app runs, before the installation has ended. -/
theorem invents_record :
    Sample.overlooking.2.state.apps.docs.map (fun app ↦ (app.appId, app.kind, app.state)) =
        [("notes", none, .running)] ∧
      ¬ AtPassSteps LockFree PrivosCluster.Sample.deploymentDeps Sample.tasks Sample.world
        (Sample.overlooked.1 ++ Sample.overlooking.1) fun container c w w' ↦
          Binds "2" container ∨ Binds "3" container → Restrained c w w' := by
  refine ⟨overlooking_running, fun h ↦ ?_⟩
  have hrun : Pool.Run (cluster LockFree) _ Sample.overlooked.1 Sample.overlooked.2 :=
    Pool.run_play _ _ _
  obtain ⟨notes, noted⟩ := hrun.noted fun _ ↦ Survey.empty
  have hlast : Pool.Run (cluster LockFree) Sample.overlooked.2 Sample.overlooking.1
      Sample.overlooking.2 := Pool.run_play _ _ _
  have hevents : Sample.overlooking.1.map (fun e ↦ (e.thread, Sample.isUpsert e.call)) =
      [(1, true)] := by decide +kernel
  obtain ⟨e, hsingle, he⟩ := map_eq_singleton_iff.mp hevents
  obtain ⟨hthread, hupsert⟩ := Prod.mk.inj he
  have hpass : Sample.tasks e.thread = .reconcile := by
    rw [hthread]
    rfl
  have hstep := hlast.single hsingle
  have hdiscovers := discovers_of_noted noted hstep hpass
  have hbinds : Binds "2" (Sample.container Sample.labels .running) :=
    Sample.binds (by decide +kernel)
  have hheld := holds_of_noted noted (Sample.lists_of_play hbinds) e.thread
  obtain ⟨container, found, hlooked⟩ : ∃ container found,
      (notes e.thread).looked = some (container, found) := by
    generalize e.call = c at hdiscovers hupsert
    cases hdiscovers with
    | elsewhere spares => exact (Sample.not_isUpsert spares hupsert).elim
    | reconstructs filter baseDomain workspaceId nodeId replicaId time looked =>
      exact ⟨_, _, looked⟩
    | looksUp | recordsOom | adopts => cases hupsert
  have hrestrained := h _ e [] notes _ _ (by rw [hsingle]) noted hstep hpass container found hlooked
    (.inl (hheld.looked container found hlooked))
  obtain ⟨app, happ, hfields⟩ := map_eq_singleton_iff.mp overlooking_running
  simp only [Prod.mk.injEq] at hfields
  obtain ⟨app₀, happ₀, -⟩ := hrestrained.kinds app (by simp [happ]) hfields.2.1
  rw [eq_nil_of_length_eq_zero overlooked_empty] at happ₀
  cases happ₀

/-- A pass over a container that is not complete yet leaves it to its installation. -/
theorem restrained_of_recognized_passing :
    AtPassSteps LockFree PrivosCluster.Sample.deploymentDeps Sample.tasks Sample.world
      Sample.passing.1 fun container c w w' ↦
        Binds "2" container ∨ Binds "3" container → Restrained c w w' := by
  apply restrained_of_recognized
  intro earlier e later notes pool hsplit noted hpass filter container rest hcall hfault hpending _
  have hlisted : Sample.Incomplete (Sample.container Sample.unversioned .created) :=
    ⟨by decide +kernel, by decide⟩
  have hall : Lists Sample.passing.1 Sample.Incomplete := Sample.lists_of_play hlisted
  have hlists : Lists earlier Sample.Incomplete := by
    intro e' he'
    apply hall e'
    rw [hsplit]
    exact mem_append_left _ he'
  have hincomplete := (holds_of_noted noted hlists e.thread).pending container (by simp [hpending])
  exact hincomplete.recognized _

end McpDiscovery

end PrivosCluster
