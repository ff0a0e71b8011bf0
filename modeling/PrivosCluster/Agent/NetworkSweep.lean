import PrivosCluster.Agent.BrokerSpec
import PrivosCluster.Agent.LifecycleSpec
import PrivosCluster.AsyncProgram.RelyGuarantee

/-!
# Sweeps of unused networks beside deployments

A deployment ensures its network first and creates its container much later. In between nothing on
the host refers to the network, and a sweep may take it for unused.
-/

namespace PrivosCluster.AgentHost

open ContainerManager Function NetworkManager Option

open AsyncProgram Agent Routing LifecycleService List

/-- What an agent does to the networks of workspaces. -/
inductive NetworkActivity where
  | deploy (req : DeployRequest)
  | sweep (minAgeMs : Nat)
  /-- The release of a network after a cleanup, which may fail. -/
  | release (workspaceId : String)

def NetworkActivity.program (config : HostConfig) (platform : HostPlatform) :
    NetworkActivity → HostProgram Unit
  | deploy req => do
    let _ ← deployManagedApp config platform req
    .pure ()
  | sweep minAgeMs => do
    let _ ← NetworkManager.sweepUnusedWorkspaceNetworks config minAgeMs
    .pure ()
  | release workspaceId => do
    let _ ← (NetworkManager.removeWorkspaceNetworkIfUnused config workspaceId).settle
    .pure ()

/-- The network that a deployment ensures. -/
def NetworkActivity.network (config : HostConfig) : NetworkActivity → Option String
  | deploy req => (appNetworkName config req.workspaceId).toOption
  | _ => none

/-- The next call of the program takes the agent out of the network, or removes the network. -/
def Poised {α : Type} (networkName : String) : HostProgram α → Prop
  | .call (.removeNetwork name) _ => name = networkName
  | .call (.disconnectNetwork name _) _ => name = networkName
  | _ => False

def HostCall.installs : HostCall → Bool
  | .createContainer _ => true
  | .start _ => true
  | _ => false

section Threads

variable {ι : Type} [DecidableEq ι]

abbrev NetworkPool (ι : Type) := Pool hostSignature HostError Host ι

abbrev NetworkEvent (ι : Type) := Event hostSignature HostChoice ι

def networkThreads (config : HostConfig) (platform : HostPlatform)
    (activities : ι → NetworkActivity) (host : Host) : NetworkPool ι :=
  ⟨fun i ↦ (activities i).program config platform, host⟩

/-- The deployment has asked for its network and for no container yet, and it may still create or
start one. -/
structure Exposed (networkName : String) (i : ι) (events : List (NetworkEvent ι))
    (pool : NetworkPool ι) : Prop where
  asked : ∃ e ∈ events, e.thread = i ∧ e.call = .createNetwork networkName
  unbuilt : ∀ e ∈ events, e.thread = i → ∀ request, e.call ≠ .createContainer request
  ahead : ¬ Asks (fun c : HostCall ↦ c.installs = false) (pool.threads i)

/-- No removal of a network is under way while a deployment is exposed in it. -/
def Undisputed (config : HostConfig) (activities : ι → NetworkActivity)
    (events : List (NetworkEvent ι)) (pool : NetworkPool ι) : Prop :=
  ∀ i networkName, (activities i).network config = some networkName →
    Exposed networkName i events pool → ∀ j, ¬ Poised networkName (pool.threads j)

/-- The call finds the network there that was ensured, and the container is created in it. -/
def Connected (config : HostConfig) (activity : NetworkActivity) (c : HostCall) (host : Host) :
    Prop :=
  ∃ networkName, activity.network config = some networkName ∧ networkName ∈ host.networks ∧
    ∀ request, c = .createContainer request → request.networkMode = networkName

end Threads

/-! ## Calls that neither install nor remove -/

/-- The call changes no network and no container but by stopping it. -/
def HostCall.quiet : HostCall → Bool
  | .createContainer _ => false
  | .start _ => false
  | .remove _ _ => false
  | .createNetwork _ => false
  | .disconnectNetwork _ _ => false
  | .removeNetwork _ => false
  | _ => true

abbrev Quiet {α : Type} (p : HostProgram α) : Prop := Asks (fun c : HostCall ↦ c.quiet = true) p

variable {binding : McpRuntimeBindingV3} {clusterId name : String} {names : List String}
  {workspaceId : Option String} {cfg : CreateContainerConfig} {info : NetworkInfo}

section Quiet

variable {config : HostConfig} {platform : HostPlatform} {req : DeployRequest} {α : Type}

theorem Idle.quiet {p : HostProgram α} (h : Idle p) : Quiet p := by
  apply h.imp
  intro c hc
  cases c <;> first | rfl | cases hc

theorem Blind.quiet {p : HostProgram α} (h : Blind p) : Quiet p := h.idle.quiet

theorem quiet_registerSocket {binding : ReplicaBinding} :
    Quiet (McpBrokerManager.registerSocket config binding) := by
  apply asks_registerSocket.imp
  intro c hc
  cases hc with
  | close => rfl
  | socket h => cases h <;> rfl
  | setServer server => rfl

theorem quiet_cleanup {replicaId : String} : Quiet (McpBrokerManager.cleanup config replicaId) := by
  apply asks_cleanup.imp
  intro c hc
  cases hc <;> rfl

theorem quiet_register {binding : ReplicaBinding} :
    Quiet (McpBrokerManager.register config platform binding) := by
  cases binding with
  | v2 binding containerId dockerId networkName => exact quiet_registerSocket
  | v3 binding dockerId networkName =>
    exact blind_persistFinalizedV3.quiet.bind fun _ ↦ quiet_registerSocket

theorem quiet_restoreOrRegisterProvisioningV3 {dockerId networkName : String} {labels : Labels} :
    Quiet (McpBrokerManager.restoreOrRegisterProvisioningV3 config platform binding dockerId
      networkName labels) := by
  apply Asks.tryCatch
  · apply Asks.bind Asks.ofExcept
    intro replicaId
    apply Asks.bind blind_readPersistedV3.quiet
    intro found
    apply Asks.bind Asks.ofExcept
    intro networkName
    apply Asks.bind Asks.ofExcept
    intro hash
    apply Asks.bind Asks.ofExcept
    intro hubPublicJwk
    apply Asks.bind
    · apply Asks.onlyIf
      apply Asks.bind (asks_await (by rfl))
      intro _
      exact asks_await (by rfl)
    · exact fun _ ↦ quiet_register
  · intro e
    split
    · trivial
    · exact quiet_registerSocket

theorem quiet_registerBroker {dockerId : String} :
    Quiet (registerBroker config platform req clusterId dockerId) := by
  unfold registerBroker
  split
  · apply Asks.bind Asks.ofExcept
    exact fun _ ↦ quiet_register
  · apply Asks.bind Asks.throwIf
    intro _
    apply Asks.bind Asks.ofExcept
    exact fun _ ↦ quiet_registerSocket
  · exact Asks.pure

/-- A deployment without a container to undo. -/
theorem quiet_rollBack {e : HostError} : Quiet (rollBack config req none names e) :=
  asks_rollBack (fun _ ↦ rfl) fun _ ↦ quiet_cleanup

theorem quiet_ensureDeployVolume {volume : Volume} :
    Quiet (ensureDeployVolume req clusterId volume) := by
  apply Asks.bind
  · apply (asks_await (by rfl)).tryCatch
    intro e
    split <;> trivial
  · exact fun _ ↦ Asks.pure

end Quiet

/-! ## The phases of a deployment -/

inductive Phase where
  | outset
  | ensured
  /-- The container has been created and not been removed. -/
  | owning (dockerId : String)
  | over

/-- Docker has the network after this answer. -/
def ensures : Except HostError Unit → Bool
  | .ok _ => true
  | .error e => e.statusCode = some 409

def Phase.after : Phase → (c : HostCall) → Except HostError c.Answer → Phase
  | .outset, .createNetwork _, answer => if ensures answer then .ensured else .over
  | .ensured, .createContainer _, answer =>
    match answer with
    | .ok dockerId => .owning dockerId
    | .error _ => .over
  | .owning _, .remove _ _, _ => .over
  | phase, _, _ => phase

def Phase.allows (networkName : String) : Phase → HostCall → Prop
  | .outset, c => c = .createNetwork networkName
  | .ensured, c => c.quiet = true ∨ (∃ dockerId, c = .start dockerId) ∨
      ∃ request, c = .createContainer request ∧ request.networkMode = networkName ∧
        request.labels.lookup managedLabel.1 = some managedLabel.2
  | .owning dockerId, c =>
    c.quiet = true ∨ (∃ other, c = .start other) ∨ c = .remove dockerId true
  | .over, c => c.quiet = true

/-- A deployment goes through its phases, whatever others do. -/
def phases (networkName : String) : Contract hostSignature HostError Host HostChoice Phase where
  track := Phase.after
  assumes _ _ _ := True
  rely _ _ _ := True
  ensures phase c _ _ := phase.allows networkName c
  rely_refl _ _ := trivial
  rely_trans _ _ _ _ _ _ := trivial

/-- The program goes on within the phases, however it ends. -/
abbrev InPhases {α : Type} (law : HostCall → HostChoice → Prop) (networkName : String)
    (p : HostProgram α) (phase : Phase) (host : Host) : Prop :=
  Among (hostMachine law) (phases networkName) (fun _ _ _ ↦ True) p phase host

/-- A container that is returned is owned from then on. -/
abbrev Creates (law : HostCall → HostChoice → Prop) (networkName : String)
    (p : HostProgram String) (phase : Phase) (host : Host) : Prop :=
  Among (hostMachine law) (phases networkName)
    (onExit (fun dockerId after _ ↦ after = .owning dockerId) fun _ after _ ↦ after ≠ .outset)
    p phase host

section Deployments

variable {law : HostCall → HostChoice → Prop} {config : HostConfig} {platform : HostPlatform}
  {req : DeployRequest} {host : Host} {networkName : String} {phase : Phase} {α β : Type}

theorem ensured_ne : Phase.ensured ≠ .outset := nofun

variable {dockerId : String}

theorem owning_ne : Phase.owning dockerId ≠ .outset := nofun

theorem over_ne : Phase.over ≠ .outset := nofun

theorem after_quiet {c : HostCall} (hc : c.quiet) {answer : Except HostError c.Answer} :
    phase.after c answer = phase := by
  cases phase <;> cases c <;> first | rfl | cases hc

theorem allows_quiet {c : HostCall} (hc : c.quiet) (hphase : phase ≠ .outset) :
    phase.allows networkName c := by
  cases phase with
  | outset => exact absurd rfl hphase
  | ensured => exact .inl hc
  | owning dockerId => exact .inl hc
  | «over» => exact hc

theorem among_quiet {p : HostProgram α} (hp : Quiet p) (hphase : phase ≠ .outset) :
    Among (hostMachine law) (phases networkName) (fun _ after _ ↦ after = phase) p phase host := by
  apply Among.keeps (I := fun after _ ↦ after = phase) hp
  · exact fun _ _ _ _ h ↦ h
  · rintro _ c x host hc _ _ rfl
    exact ⟨allows_quiet hc hphase, after_quiet hc⟩
  · rfl

/-- What a phase allows and does not end it. -/
theorem among_start (hphase : phase = .ensured ∨ ∃ own, phase = .owning own) :
    Among (hostMachine law) (phases networkName) (fun _ after _ ↦ after = phase)
      (ContainerManager.startContainer dockerId) phase host := by
  apply Among.tryCatch (E := fun _ after _ ↦ after = phase)
  · intro host' _ x _ _
    constructor
    · obtain rfl | ⟨own, rfl⟩ := hphase
      · exact .inr (.inl ⟨dockerId, rfl⟩)
      · exact .inr (.inl ⟨dockerId, rfl⟩)
    · obtain rfl | ⟨own, rfl⟩ := hphase
      · cases ((hostMachine law).respond (.start dockerId) x host').1 <;> rfl
      · cases ((hostMachine law).respond (.start dockerId) x host').1 <;> rfl
  · intro e after host' h
    split
    · exact h
    · exact h

/-- A quiet program in front of another. -/
theorem among_quiet_bind {p : HostProgram α} {f : α → HostProgram β}
    {Q : Except HostError β → Phase → Host → Prop} (hp : Quiet p) (hphase : phase ≠ .outset)
    (hf : ∀ a host, Among (hostMachine law) (phases networkName) Q (f a) phase host)
    (herror : ∀ e host, Q (.error e) phase host) :
    Among (hostMachine law) (phases networkName) Q (p >>= f) phase host := by
  apply (among_quiet hp hphase).bind
  · rintro a _ host rfl
    exact hf a host
  · rintro e _ host rfl
    exact herror e host

theorem among_quiet_then {p : HostProgram α} {f : α → HostProgram β} (hp : Quiet p)
    (hphase : phase ≠ .outset) (hf : ∀ a host, InPhases law networkName (f a) phase host) :
    InPhases law networkName (p >>= f) phase host :=
  among_quiet_bind hp hphase hf fun _ _ ↦ trivial

theorem unscoped_of_error {e : HostError} (herror : appNetworkName config workspaceId = .error e) :
    config.fleetMode ∧ truthy workspaceId = none := by
  unfold appNetworkName getAppNetworkName at herror
  by_cases hfleet : config.fleetMode
  · apply And.intro hfleet
    rw [if_pos hfleet] at herror
    change workspaceId.filter (· ≠ "") = none
    cases hscope : workspaceId.filter (· ≠ "") with
    | none => rfl
    | some workspaceId =>
      rw [hscope] at herror
      cases herror
  · rw [if_neg hfleet] at herror
    cases hshared : config.appNetworkName <;> rw [hshared] at herror <;> cases herror

theorem among_ensureNetwork (hname : appNetworkName config workspaceId = .ok networkName) :
    Among (hostMachine law) (phases networkName)
      (onExit (fun _ phase _ ↦ phase = .ensured) fun _ _ _ ↦ True)
      (NetworkManager.ensureNetwork config workspaceId) .outset host := by
  unfold NetworkManager.ensureNetwork
  split
  next h =>
    have hnone : workspaceId.filter (· ≠ "") = none := h.2
    unfold appNetworkName getAppNetworkName at hname
    rw [if_pos h.1, hnone] at hname
    cases hname
  next h =>
    rw [hname]
    have hcreate : Among (hostMachine law) (phases networkName)
        (onExit (fun _ phase _ ↦ phase = .ensured) fun _ _ _ ↦ True)
        ((await (.createNetwork networkName)).tryCatch fun e ↦
          if e.statusCode ≠ some 409 then .throw (failedTo ("create network " ++ networkName) e)
          else .pure ()) .outset host := by
      apply Among.tryCatch (E := fun e phase _ ↦ e.statusCode = some 409 → phase = .ensured)
      · intro host' _ x _ _
        apply And.intro rfl
        cases hanswer : ((hostMachine law).respond (.createNetwork networkName) x host').1 with
        | ok _ => rfl
        | error e =>
          intro hstatus
          simp [phases, Phase.after, ensures, hstatus]
      · intro e phase host' h
        split
        · trivial
        next hstatus => exact h (not_not.mp hstatus)
    apply hcreate.bind
    · rintro _ _ host rfl
      have hattach : Quiet (Program.onlyIf (config.fleetMode)
          (attachAgent config networkName)) := by
        apply Asks.onlyIf
        apply Asks.bind (asks_await (by rfl))
        intro networkMode
        apply Asks.onlyIf
        apply Asks.bind (asks_await (by rfl))
        intro (info : NetworkInfo)
        apply Asks.onlyIf
        apply (asks_await (by rfl)).tryCatch
        intro e
        split <;> trivial
      apply (among_quiet hattach ensured_ne).imp
      intro r phase host h
      cases r with
      | ok _ => exact h
      | error e => trivial
    · exact fun _ _ _ _ ↦ trivial

theorem among_resume {existing : DockerState.Found} :
    InPhases law networkName (resume config platform req binding existing) .ensured host := by
  apply among_quiet_then (asks_await (by rfl)) ensured_ne
  intro (info : HostContainer) host
  apply among_quiet_then Asks.throwIf ensured_ne
  intro _ host
  apply among_quiet_then Asks.ofExcept ensured_ne
  intro _ host
  apply among_quiet_then quiet_restoreOrRegisterProvisioningV3 ensured_ne
  intro _ host
  unfold resumed
  split
  · apply (among_start (.inl rfl)).bind
    · rintro _ _ host rfl
      apply among_quiet_then blind_getById.quiet ensured_ne
      intro found host
      cases found <;> trivial
    · exact fun _ _ _ _ ↦ trivial
  · trivial

theorem among_rollBack_none {e : HostError} (hphase : phase ≠ .outset) :
    InPhases law networkName (rollBack config req none names e) phase host :=
  (among_quiet quiet_rollBack hphase).imp fun _ _ _ _ ↦ trivial

/-- The container of the deployment is stopped and removed, and the rest is quiet. -/
theorem among_rollBack {e : HostError} :
    InPhases law networkName (rollBack config req (some dockerId) names e) (.owning dockerId)
      host := by
  have hremove : ∀ host, Among (hostMachine law) (phases networkName)
      (fun _ after _ ↦ after = .over) (ContainerManager.removeContainer dockerId true)
      (.owning dockerId) host := by
    intro host
    apply Among.tryCatch (E := fun _ after _ ↦ after = .over)
    · intro host' _ x _ _
      apply And.intro (.inr (.inr rfl))
      cases ((hostMachine law).respond (.remove dockerId true) x host').1 <;> rfl
    · intro e after host' h
      split
      · exact h
      · exact h
  apply Among.bind (R := fun _ phase _ ↦ phase ≠ .outset)
  · apply among_quiet_bind (asks_stopContainer (by rfl)).settle owning_ne
    · intro _ host
      apply Among.bind (R := fun _ phase _ ↦ phase = .over) (hremove host).settle
      · rintro _ _ host rfl
        exact over_ne
      · rintro _ _ host rfl
        exact over_ne
    · exact fun _ _ ↦ owning_ne
  · exact fun _ phase host hphase ↦ among_rollBack_none hphase
  · exact fun _ _ _ _ ↦ trivial

theorem among_finishDeploy {port : Int} :
    Among (hostMachine law) (phases networkName) (fun _ phase _ ↦ phase = .owning dockerId)
      (finishDeploy config platform req clusterId dockerId port) (.owning dockerId) host := by
  apply among_quiet_bind quiet_registerBroker owning_ne
  · intro _ host
    apply (among_start (.inr ⟨dockerId, rfl⟩)).bind
    · rintro _ _ host rfl
      apply among_quiet _ owning_ne
      apply Asks.bind idle_getInternalUrl.quiet
      intro internalUrl
      apply Asks.bind (asks_await (by rfl))
      intro _
      apply Asks.bind blind_getById.quiet
      intro found
      cases found <;> trivial
    · rintro _ _ host rfl
      rfl
  · exact fun _ _ ↦ rfl

/-- Where the creation has failed, what is there of a container is not known. -/
theorem among_createAppContainer (hname : appNetworkName config cfg.workspaceId = .ok networkName) :
    Creates law networkName
      (createAppContainer config platform.toAgentPlatform cfg) .ensured host := by
  unfold createAppContainer
  cases hrequest : containerRequest config platform.toAgentPlatform cfg with
  | error e => exact ensured_ne
  | ok request =>
    have hmode : request.networkMode = networkName :=
      Except.ok.inj ((networkMode_of_containerRequest hrequest).symm.trans hname)
    change Among _ _ _ (await (.createContainer request) >>= fun (dockerId : String) ↦
      await (.inspect dockerId) >>= fun _ ↦ .pure dockerId) _ _
    apply Among.bind (R := onExit (fun dockerId phase _ ↦ phase = .owning dockerId)
      fun _ phase _ ↦ phase ≠ .outset)
    · intro host' _ x _ _
      apply And.intro (.inr (.inr ⟨request, rfl, hmode, (marks_of_containerRequest hrequest).2⟩))
      cases hanswer : ((hostMachine law).respond (.createContainer request) x host').1 with
      | ok dockerId => rfl
      | error e => exact over_ne
    · rintro dockerId _ host rfl
      apply among_quiet_bind (asks_await (by rfl)) owning_ne
      · exact fun _ _ ↦ rfl
      · exact fun _ _ ↦ owning_ne
    · exact fun _ _ _ h ↦ h

theorem among_unrequested {e : HostError}
    (herror : appNetworkName config cfg.workspaceId = .error e) :
    Creates law networkName
      (createAppContainer config platform.toAgentPlatform cfg) .over host := by
  unfold createAppContainer
  cases hrequest : containerRequest config platform.toAgentPlatform cfg with
  | error e => exact over_ne
  | ok request =>
    have hmode := networkMode_of_containerRequest hrequest
    have hscope := herror.symm.trans hmode
    cases hscope

theorem among_install (hphase : phase ≠ .outset)
    (hcreate : ∀ {cfg : CreateContainerConfig} {host : Host}, cfg.workspaceId = req.workspaceId →
      Creates law networkName
        (createAppContainer config platform.toAgentPlatform cfg) phase host)
    {baseDomain brokerMount : Option String} :
    InPhases law networkName (install config platform req clusterId baseDomain brokerMount) phase
      host := by
  apply among_quiet_then (Asks.collectEach (fun _ _ ↦ quiet_ensureDeployVolume) []) hphase
  intro ensured host
  obtain ⟨mounts, failure⟩ := ensured
  cases failure with
  | some e => exact among_rollBack_none hphase
  | none =>
    have hcreated : Creates law networkName
        (createDeployed config platform req clusterId baseDomain brokerMount mounts) phase
        host := by
      apply among_quiet_bind (asks_await (by rfl)) hphase
      · intro (uuid : String) host
        apply among_quiet_bind (asks_await (by rfl)) hphase
        · exact fun _ _ ↦ hcreate rfl
        · exact fun _ _ ↦ hphase
      · exact fun _ _ ↦ hphase
    apply Among.bind (R := onExit (onExit (fun dockerId phase _ ↦ phase = .owning dockerId)
      fun _ phase _ ↦ phase ≠ .outset) fun _ _ _ ↦ False) hcreated.settle
    · intro created phase host hphase
      cases created with
      | ok dockerId =>
        obtain rfl : phase = .owning dockerId := hphase
        apply Among.tryCatch (E := fun _ phase _ ↦ phase = .owning dockerId)
        · apply among_finishDeploy.imp
          intro r phase host h
          cases r with
          | ok _ => trivial
          | error e => exact h
        · rintro e _ host rfl
          exact among_rollBack
      | error e => exact among_rollBack_none hphase
    · exact fun _ _ _ h ↦ h.elim

/-- An installation stays within the phases if the creation of its container does. -/
theorem among_installNew (hphase : phase ≠ .outset)
    (hcreate : ∀ {cfg : CreateContainerConfig} {host : Host}, cfg.workspaceId = req.workspaceId →
      Creates law networkName
        (createAppContainer config platform.toAgentPlatform cfg) phase host) :
    InPhases law networkName (installNew config platform req clusterId) phase host := by
  apply among_quiet_then blind_assertHostAvailable.quiet hphase
  intro _ host
  apply among_quiet_then blind_assertResourceBudget.quiet hphase
  intro _ host
  apply among_quiet_then Asks.ofExcept hphase
  intro _ host
  apply among_quiet_then blind_pullImage.quiet hphase
  intro _ host
  apply among_quiet_then blind_prepareBroker.quiet hphase
  exact fun _ _ ↦ among_install hphase hcreate

/-- Without a network of its own no deployment gets as far as a container. -/
theorem among_unconnected {e : HostError}
    (herror : appNetworkName config req.workspaceId = .error e) :
    InPhases law networkName (deployManagedApp config platform req) .over host := by
  obtain ⟨hfleet, hnone⟩ := unscoped_of_error herror
  have hensure : Quiet (NetworkManager.ensureNetwork config req.workspaceId) := by
    unfold NetworkManager.ensureNetwork
    rw [if_pos ⟨hfleet, hnone⟩]
    trivial
  apply among_quiet_then hensure over_ne
  intro _ host
  split
  · apply among_quiet_then (asks_await (by rfl)) over_ne
    exact fun _ _ ↦ among_installNew over_ne fun hscope ↦ among_unrequested (hscope ▸ herror)
  next binding hbinding =>
    have hlookup : DockerState.getById config binding.containerId req.workspaceId =
        .throw (jsError "workspace scope required") := by
      unfold DockerState.getById Program.throwIf
      rw [if_pos ⟨hfleet, hnone⟩]
      rfl
    rw [hlookup]
    trivial

/-- A deployment keeps to its phases. -/
theorem among_deployManagedApp (hname : appNetworkName config req.workspaceId = .ok networkName) :
    InPhases law networkName (deployManagedApp config platform req) .outset host := by
  have hinstall : ∀ (clusterId : String) host,
      InPhases law networkName (installNew config platform req clusterId) .ensured host :=
    fun _ _ ↦ among_installNew ensured_ne fun hscope ↦ among_createAppContainer (hscope ▸ hname)
  apply (among_ensureNetwork hname).bind
  · rintro _ _ host rfl
    split
    · exact among_quiet_then (asks_await (by rfl)) ensured_ne hinstall
    next binding hbinding =>
      apply among_quiet_then blind_getById.quiet ensured_ne
      intro existing host
      cases existing with
      | some existing => exact among_resume
      | none => exact hinstall _ _
  · exact fun _ _ _ _ ↦ trivial

end Deployments

/-! ## Sweeps -/

/-- No container of a listing refers to the network. -/
def Unreferenced (networkName : String) (list : List (String × HostContainer)) : Prop :=
  ∀ entry ∈ list, entry.2.networkMode ≠ some networkName

/-- The answer shows that no managed container refers to the network. -/
def Clear (networkName : String) : (c : HostCall) → Except HostError c.Answer → Prop
  | .listContainers labels, .ok list => labels = [managedLabel] ∧ Unreferenced networkName list
  | _, _ => False

/-- The agent is taken out of the network, or the network is removed. -/
def Detaches (networkName : String) (c : HostCall) : Prop :=
  c = .removeNetwork networkName ∨ ∃ container, c = .disconnectNetwork networkName container

/-- A program that comes to remove a network only through a check that shows it unused. -/
def Sweeping {α : Type} : HostProgram α → Prop
  | .pure _ => True
  | .throw _ => True
  | .call c k => (c.quiet = true ∨ ∃ networkName, Detaches networkName c) ∧
      ∀ answer, (∀ networkName, Poised networkName (k answer) →
        Clear networkName c answer ∨ Detaches networkName c) ∧ Sweeping (k answer)

section Sweeps

variable {config : HostConfig} {networkName : String} {α β : Type}

theorem detaches_of_poised {c : HostCall} {k : Except HostError c.Answer → HostProgram α}
    (h : Poised networkName (.call c k)) : Detaches networkName c := by
  cases c <;> first | exact h.elim | skip
  case disconnectNetwork name container =>
    obtain rfl : name = networkName := h
    exact .inr ⟨container, rfl⟩
  case removeNetwork name =>
    obtain rfl : name = networkName := h
    exact .inl rfl

theorem poised_of_detaches {c : HostCall} {k : Except HostError c.Answer → HostProgram α}
    (h : Detaches networkName c) : Poised networkName (.call c k) := by
  rcases h with rfl | ⟨container, rfl⟩ <;> rfl

variable {p : HostProgram α}

theorem not_poised_of_quiet (h : Quiet p) : ¬ Poised networkName p := by
  cases p with
  | pure a => exact id
  | throw e => exact id
  | call c k =>
    intro hpoised
    have hquiet := h.1
    rcases detaches_of_poised hpoised with rfl | ⟨container, rfl⟩ <;> cases hquiet

theorem sweeping_of_quiet (h : Quiet p) : Sweeping p := by
  induction p with
  | pure a => trivial
  | throw e => trivial
  | call c k ih =>
    apply And.intro (.inl h.1)
    intro answer
    apply And.intro _ (ih answer (h.2 answer))
    exact fun networkName hpoised ↦ absurd hpoised (not_poised_of_quiet (h.2 answer))

theorem poised_bind {f : α → HostProgram β} (h : Poised networkName (p >>= f)) :
    Poised networkName p ∨ ∃ a, Poised networkName (f a) := by
  cases p with
  | pure a => exact .inr ⟨a, h⟩
  | throw e => exact h.elim
  | call c k => exact .inl (poised_of_detaches (detaches_of_poised h))

theorem poised_settle (h : Poised networkName p.settle) : Poised networkName p := by
  cases p with
  | pure a => exact h.elim
  | throw e => exact h.elim
  | call c k => exact poised_of_detaches (detaches_of_poised h)

/-- What comes next must not start with a removal. -/
theorem Sweeping.bind {f : α → HostProgram β} (hp : Sweeping p) (hf : ∀ a, Sweeping (f a))
    (hcalm : ∀ a networkName, ¬ Poised networkName (f a)) : Sweeping (p >>= f) := by
  induction p with
  | pure a => exact hf a
  | throw e => trivial
  | call c k ih =>
    apply And.intro hp.1
    intro answer
    obtain ⟨hpoised, hrest⟩ := hp.2 answer
    apply And.intro _ (ih answer hrest)
    intro networkName h
    obtain h | ⟨a, h⟩ := poised_bind h
    · exact hpoised networkName h
    · exact absurd h (hcalm a networkName)

theorem Sweeping.settle (hp : Sweeping p) : Sweeping p.settle := by
  induction p with
  | pure a => trivial
  | throw e => trivial
  | call c k ih =>
    apply And.intro hp.1
    intro answer
    obtain ⟨hpoised, hrest⟩ := hp.2 answer
    exact ⟨fun networkName h ↦ hpoised networkName (poised_settle h), ih answer hrest⟩

/-- The removal itself, which is poised from its start. -/
theorem sweeping_removeUnattached :
    Sweeping (removeUnattached config networkName info) ∧
      ∀ other, Poised other (removeUnattached config networkName info) →
        other = networkName := by
  have hremove : Sweeping ((await (.removeNetwork networkName)).settle >>=
      fun removed ↦ .pure (Except.toOption removed).isSome) := by
    apply And.intro (.inr ⟨networkName, .inl rfl⟩)
    intro answer
    cases answer <;> exact ⟨fun _ h ↦ h.elim, trivial⟩
  unfold removeUnattached
  simp only
  split
  · exact ⟨trivial, fun _ h ↦ h.elim⟩
  · unfold Program.onlyIf
    split
    · constructor
      · apply And.intro (.inr ⟨networkName, .inr ⟨_, rfl⟩⟩)
        intro answer
        constructor
        · intro other hpoised
          have hother : networkName = other := by
            cases answer <;> exact hpoised
          rw [← hother]
          exact .inr (.inr ⟨_, rfl⟩)
        · cases answer <;> exact hremove
      · exact fun other hpoised ↦ Eq.symm hpoised
    · exact ⟨hremove, fun other hpoised ↦ Eq.symm hpoised⟩

/-- A check whose answer decides on a removal. -/
theorem sweeping_ask_bind {c : HostCall} {f : c.Answer → HostProgram β} (hc : c.quiet)
    (hf : ∀ a, Sweeping (f a))
    (hpoised : ∀ a networkName, Poised networkName (f a) → Clear networkName c (.ok a)) :
    Sweeping (await c >>= f) := by
  apply And.intro (.inl hc)
  intro answer
  cases answer with
  | ok a => exact ⟨fun networkName h ↦ .inl (hpoised a networkName h), hf a⟩
  | error e => exact ⟨fun _ h ↦ h.elim, trivial⟩

theorem sweeping_removeUnreferenced :
    Sweeping (removeUnreferenced config networkName info) := by
  have hremoving : Sweeping (removeUnattached config networkName info) ∧
      ∀ other, Poised other (removeUnattached config networkName info) →
        other = networkName := sweeping_removeUnattached
  obtain ⟨hsweeping, hname⟩ := hremoving
  apply sweeping_ask_bind (by rfl)
  · have hchoice : ∀ referenced : Bool, Sweeping (if referenced then .pure false
        else removeUnattached config networkName info) := by
      intro referenced
      cases referenced
      · exact hsweeping
      · trivial
    exact fun _ ↦ hchoice _
  · have hchoice : ∀ (referenced : Bool) (other : String), Poised other (if referenced then
        .pure false else removeUnattached config networkName info) →
        referenced = false ∧ other = networkName := by
      intro referenced other hpoised
      cases referenced
      · exact ⟨rfl, hname other hpoised⟩
      · exact hpoised.elim
    intro referencing other hpoised
    obtain ⟨hany, rfl⟩ := hchoice _ other hpoised
    apply And.intro rfl
    intro entry hentry hmode
    have hentry := List.any_eq_false.mp hany entry hentry
    exact hentry (decide_eq_true hmode)

/-- The network is inspected first, so nothing is removed right away. -/
theorem sweeping_release {workspaceId : String} :
    Sweeping (removeWorkspaceNetworkIfUnused config workspaceId) ∧
      ∀ other,
        ¬ Poised other (removeWorkspaceNetworkIfUnused config workspaceId) := by
  unfold removeWorkspaceNetworkIfUnused
  split
  · exact ⟨trivial, fun _ ↦ id⟩
  cases hname : appNetworkName config (some workspaceId) with
  | error e => exact ⟨trivial, fun _ ↦ id⟩
  | ok networkName =>
    have hbind : ∀ f : String → HostProgram Bool,
        (Program.ofExcept (.ok networkName) >>= f) = f networkName := fun _ ↦ rfl
    rw [hbind]
    split
    · exact ⟨trivial, fun _ ↦ id⟩
    · apply And.intro _ fun _ ↦ id
      have hinspect : Quiet (await (.inspectNetwork networkName)).settle :=
        (asks_await (by rfl)).settle
      apply (sweeping_of_quiet hinspect).bind
      · intro info
        cases info with
        | ok info => exact sweeping_removeUnreferenced
        | error e =>
          dsimp only
          split <;> trivial
      · intro info other
        cases info with
        | ok info => exact id
        | error e =>
          dsimp only
          split <;> exact id

/-- A network that is old enough is checked before it is removed. -/
theorem sweeping_sweepOne {cutoff : Time} {removed : List String} {summary : String × Option Time} :
    Sweeping (sweepOne config cutoff removed summary) ∧
      ∀ other, ¬ Poised other (sweepOne config cutoff removed summary) := by
  unfold sweepOne
  split
  · exact ⟨trivial, fun _ ↦ id⟩
  split
  · exact ⟨trivial, fun _ ↦ id⟩
  have hrelease : ∀ workspaceId,
      Sweeping (removeWorkspaceNetworkIfUnused config workspaceId) ∧
        ∀ other,
          ¬ Poised other (removeWorkspaceNetworkIfUnused config workspaceId) :=
    fun _ ↦ sweeping_release
  obtain ⟨hsweeping, hcalm⟩ := hrelease (workspaceOf summary.1)
  constructor
  · apply hsweeping.bind
    · exact fun _ ↦ trivial
    · exact fun _ _ ↦ id
  · intro other hpoised
    obtain hpoised | ⟨gone, hpoised⟩ := poised_bind hpoised
    · exact hcalm other hpoised
    · exact hpoised.elim

/-- One network after the other. -/
theorem sweeping_foldEach {body : β → α → HostProgram β} {b : β} {xs : List α}
    (hbody : ∀ b x, Sweeping (body b x) ∧ ∀ other, ¬ Poised other (body b x)) :
    Sweeping (Program.foldEach body b xs) ∧
      ∀ other, ¬ Poised other (Program.foldEach body b xs) := by
  induction xs generalizing b with
  | nil => exact ⟨trivial, fun _ ↦ id⟩
  | cons x xs ih =>
    constructor
    · exact (hbody b x).1.bind (fun _ ↦ ih.1) fun _ ↦ ih.2
    · intro other hpoised
      obtain hpoised | ⟨b', hpoised⟩ := poised_bind hpoised
      · exact (hbody b x).2 other hpoised
      · exact ih.2 other hpoised

theorem sweeping_sweep {minAgeMs : Nat} :
    Sweeping (sweepUnusedWorkspaceNetworks config minAgeMs) := by
  unfold sweepUnusedWorkspaceNetworks
  split
  · trivial
  have hfold : ∀ (networks : List (String × Option Time)) (time : Time),
      let sweeps := Program.foldEach
        (sweepOne config (time - (minAgeMs : Int))) [] networks
      Sweeping sweeps ∧ ∀ other, ¬ Poised other sweeps :=
    fun _ _ ↦ sweeping_foldEach fun _ _ ↦ sweeping_sweepOne
  apply sweeping_ask_bind (by rfl)
  · intro networks
    apply sweeping_ask_bind (by rfl)
    · exact fun time ↦ (hfold networks time).1
    · exact fun time other h ↦ absurd h ((hfold networks time).2 other)
  · exact fun _ _ ↦ fun h ↦ h.elim

theorem sweeping_program {platform : HostPlatform} {activity : NetworkActivity}
    (hdeploy : ∀ req, activity ≠ .deploy req) : Sweeping (activity.program config platform) := by
  cases activity with
  | deploy req => exact absurd rfl (hdeploy req)
  | sweep minAgeMs => exact sweeping_sweep.bind (fun _ ↦ trivial) fun _ _ ↦ id
  | release workspaceId =>
    exact sweeping_release.1.settle.bind (fun _ ↦ trivial) fun _ _ ↦ id

end Sweeps

/-! ## What the phases say of the host -/

/-- A managed container that refers to the network. -/
def Host.Refers (host : Host) (dockerId networkName : String) : Prop :=
  ∃ fixed, host.fixedOf dockerId = some fixed ∧
    fixed.labels.lookup managedLabel.1 = some managedLabel.2 ∧
      fixed.networkMode = some networkName

section Calls

variable {host : Host} {c : HostCall} {x : HostChoice} {networkName dockerId : String}

theorem networks_kept (hc : c ≠ .removeNetwork networkName) (hmem : networkName ∈ host.networks) :
    networkName ∈ (respondHost c x host).2.networks := by
  have hput : ∀ (name : String) (network : Network),
      networkName ∈ (host.putNetwork name network).networks :=
    fun name network ↦ (AList.mem_insert _).mpr (.inr hmem)
  by_cases hmoves : c.movesNetworks = false
  · rw [networks_respond hmoves]
    exact hmem
  rw [respondHost_snd]
  split
  swap
  · exact hmem
  cases c <;> first | exact absurd rfl hmoves | skip
  case createNetwork name =>
    simp only [serve]
    split
    · exact hmem
    · exact hput _ _
  case connectNetwork name container =>
    simp only [serve]
    split
    · exact hput _ _
    · exact hmem
  case disconnectNetwork name container =>
    simp only [serve]
    split
    · exact hput _ _
    · exact hmem
  case removeNetwork name =>
    have hne : networkName ≠ name := fun h ↦ hc (h ▸ rfl)
    simp only [serve]
    split
    · split
      · exact (AList.mem_erase).mpr ⟨hne, hmem⟩
      · exact hmem
    · exact hmem

theorem refers_congr {host' : Host} (h : host'.fixedOf dockerId = host.fixedOf dockerId) :
    host'.Refers dockerId networkName ↔ host.Refers dockerId networkName := by
  rw [Host.Refers, Host.Refers, h]

theorem fixedOf_kept (hcreate : ∀ request, c ≠ .createContainer request)
    (hremove : ∀ id force, c ≠ .remove id force) :
    (respondHost c x host).2.fixedOf dockerId = host.fixedOf dockerId := by
  by_cases hmoves : c.movesContainers = false
  · rw [Host.fixedOf, containers_respond hmoves]
    rfl
  cases c <;> first | exact absurd rfl hmoves | skip
  case createContainer request => exact absurd rfl (hcreate request)
  case start => exact fixedOf_start
  case stop => exact fixedOf_stop
  case remove id force => exact absurd rfl (hremove id force)

/-- An answer that counts as done says that the network is there. -/
theorem mem_createNetwork (hx : permitsHost (.createNetwork networkName) x host)
    (hanswer : ensures (respondHost (.createNetwork networkName) x host).1) :
    networkName ∈ (respondHost (.createNetwork networkName) x host).2.networks := by
  cases hfailure : x.failure with
  | some e =>
    rw [respondHost_of_some hfailure] at hanswer
    have hstatus : e.statusCode = some 409 := by simpa [ensures] using hanswer
    have hhonest : (HostCall.createNetwork networkName).honest e := by
      simpa [hfailure] using hx.1
    simp [HostCall.honest, HostCall.settledBy, hstatus] at hhonest
  | none =>
    rw [respondHost_of_none hfailure]
    simp only [serve]
    split
    next hmem => exact hmem
    next => exact (AList.mem_insert _).mpr (.inl rfl)

/-- A managed container that refers to the network shows in the check. -/
theorem not_clear (hrefers : host.Refers dockerId networkName) :
    ¬ Clear networkName c (respondHost c x host).1 := by
  obtain ⟨fixed, hfixed, hmanaged, hmode⟩ := hrefers
  obtain ⟨container, hfound, rfl⟩ := map_eq_some_iff.mp hfixed
  cases c <;> try exact id
  case listContainers labels =>
    cases hfailure : x.failure with
    | some e =>
      rw [respondHost_of_some hfailure]
      exact id
    | none =>
      rw [respondHost_of_none hfailure]
      rintro ⟨rfl, hclear⟩
      have hmem : (dockerId, container) ∈ host.matching [managedLabel] := by
        apply mem_matching.mpr
        apply And.intro hfound
        intro label hlabel
        obtain rfl := mem_singleton.mp hlabel
        exact hmanaged
      exact hclear _ hmem hmode

theorem mem_of_refers (h : host.Refers dockerId networkName) : dockerId ∈ host.containers := by
  obtain ⟨fixed, hfixed, -⟩ := h
  by_contra hnone
  rw [fixedOf_eq_none_iff.mpr hnone] at hfixed
  cases hfixed

end Calls

/-! ## The runs of a host -/

section Standing

variable {ι : Type} {law : HostCall → HostChoice → Prop} {config : HostConfig}
  {platform : HostPlatform} {activities : ι → NetworkActivity} {events : List (NetworkEvent ι)}
  {e : NetworkEvent ι} {pool pool' : NetworkPool ι} {host : Host} {networkName : String}
  {notes : ι → Phase} {i : ι} {phase : Phase}

def NetworkActivity.isDeploy : NetworkActivity → Bool
  | deploy _ => true
  | _ => false

def Unbuilt (i : ι) (events : List (NetworkEvent ι)) : Prop :=
  ∀ e ∈ events, e.thread = i → ∀ request, e.call ≠ .createContainer request

/-- The deployment has asked for its network and may still come to a container, or has one. -/
def Needs (p : HostProgram Unit) : Phase → Prop
  | .outset => False
  | .ensured => ¬ Asks (fun c : HostCall ↦ c.installs = false) p
  | .owning _ => True
  | .over => False

/-- What the phase of a deployment says of the run so far. -/
structure Held (activities : ι → NetworkActivity) (networkName : String) (i : ι)
    (events : List (NetworkEvent ι)) (pool : NetworkPool ι) (phase : Phase) : Prop where
  unbuilt : phase = .outset ∨ phase = .ensured → Unbuilt i events
  asked : phase = .ensured → ∃ e ∈ events, e.thread = i ∧ e.call = .createNetwork networkName
  network : Needs (pool.threads i) phase → networkName ∈ pool.state.networks
  refers : ∀ dockerId, phase = .owning dockerId → pool.state.Refers dockerId networkName
  calm : ∀ dockerId, phase = .owning dockerId →
    ∀ j, (activities j).isDeploy = false → ¬ Poised networkName (pool.threads j)

structure Standing (law : HostCall → HostChoice → Prop) (config : HostConfig)
    (activities : ι → NetworkActivity) (events : List (NetworkEvent ι)) (pool : NetworkPool ι)
    (notes : ι → Phase) : Prop where
  deploys : ∀ i, (activities i).isDeploy = true →
    Among (hostMachine law) (phases (((activities i).network config).getD ""))
      (fun _ _ _ ↦ True) (pool.threads i) (notes i) pool.state
  sweeps : ∀ i, (activities i).isDeploy = false → Sweeping (pool.threads i)
  held : ∀ i networkName, (activities i).network config = some networkName →
    Held activities networkName i events pool (notes i)
  unconnected : ∀ i, (activities i).network config = none → notes i = .over
  distinct : ∀ i j dockerId, notes i = .owning dockerId → notes j = .owning dockerId → i = j

theorem ne_of_isDeploy {j : ι} (hi : (activities i).isDeploy = false)
    (hj : (activities j).isDeploy) : i ≠ j := by
  rintro rfl
  rw [hi] at hj
  cases hj

theorem isDeploy_of_network (h : (activities i).network config = some networkName) :
    (activities i).isDeploy := by
  cases hactivity : activities i <;> rw [hactivity] at h <;> first | rfl | cases h

theorem Unbuilt.snoc (h : Unbuilt i events)
    (hcall : e.thread = i → ∀ request, e.call ≠ .createContainer request) :
    Unbuilt i (events ++ [e]) := by
  intro e' he' hthread
  obtain he' | he' := mem_append.mp he'
  · exact h e' he' hthread
  · obtain rfl := mem_singleton.mp he'
    exact hcall hthread

/-- A deployment that needs its network is exposed until it owns a container. -/
theorem Held.exposed (h : Held activities networkName i events pool .ensured)
    (hneeds : Needs (pool.threads i) .ensured) : Exposed networkName i events pool :=
  ⟨h.asked rfl, h.unbuilt (.inr rfl), hneeds⟩

/-- The call of another thread leaves what a phase says. -/
theorem Held.other (h : Held activities networkName i events pool phase) (hthread : e.thread ≠ i)
    (hsame : pool'.threads i = pool.threads i)
    (hnetworks : Needs (pool.threads i) phase → networkName ∈ pool.state.networks →
      networkName ∈ pool'.state.networks)
    (hrefers : ∀ dockerId, phase = .owning dockerId → pool.state.Refers dockerId networkName →
      pool'.state.Refers dockerId networkName)
    (hcalm : ∀ dockerId, phase = .owning dockerId →
      ∀ j, (activities j).isDeploy = false → ¬ Poised networkName (pool'.threads j)) :
    Held activities networkName i (events ++ [e]) pool' phase := by
  constructor
  · intro hphase
    exact (h.unbuilt hphase).snoc fun heq ↦ absurd heq hthread
  · intro hphase
    obtain ⟨e', he', hcall⟩ := h.asked hphase
    exact ⟨e', mem_append_left _ he', hcall⟩
  · rw [hsame]
    exact fun hneeds ↦ hnetworks hneeds (h.network hneeds)
  · exact fun dockerId hphase ↦ hrefers dockerId hphase (h.refers dockerId hphase)
  · exact hcalm

theorem Held.over : Held activities networkName i events pool .over := by
  constructor
  · rintro (h | h) <;> cases h
  · exact fun h ↦ nomatch h
  · exact False.elim
  · exact nofun
  · exact nofun

theorem standing_networkThreads : Standing law config activities []
    (networkThreads config platform activities host)
    (fun i ↦ if ((activities i).network config).isSome then .outset else .over) := by
  constructor
  · intro i hdeploy
    have hprogram : ∀ {phase : Phase} {name : String} {req : DeployRequest},
        InPhases law name (deployManagedApp config platform req) phase host →
        InPhases law name ((NetworkActivity.deploy req).program config platform) phase host := by
      intro phase name req h
      apply h.bind
      · exact fun _ _ _ _ ↦ trivial
      · exact fun _ _ _ _ ↦ trivial
    change Among _ _ _ ((activities i).program config platform) _ host
    cases hactivity : activities i with
    | deploy req =>
      cases hname : appNetworkName config req.workspaceId with
      | ok name =>
        simp only [NetworkActivity.network, hname, Except.toOption, isSome_some, if_true]
        exact hprogram (among_deployManagedApp hname)
      | error e =>
        simp only [NetworkActivity.network, hname, Except.toOption, isSome_none,
          Bool.false_eq_true, if_false]
        exact hprogram (among_unconnected hname)
    | sweep | release =>
      rw [hactivity] at hdeploy
      cases hdeploy
  · intro i hsweep
    apply sweeping_program
    intro req hactivity
    rw [hactivity] at hsweep
    cases hsweep
  · intro i networkName hnetwork
    simp only [hnetwork, isSome_some, if_true]
    constructor
    · exact fun _ _ h ↦ absurd h not_mem_nil
    · exact fun h ↦ nomatch h
    · exact False.elim
    · exact nofun
    · exact nofun
  · intro i hnetwork
    simp [hnetwork]
  · intro i j dockerId hi _
    split at hi <;> cases hi

theorem spares_of_quiet {c : HostCall} (hc : c.quiet) :
    (∀ request, c ≠ .createContainer request) ∧ ∀ id force, c ≠ .remove id force := by
  constructor
  · rintro request rfl
    cases hc
  · rintro id force rfl
    cases hc

theorem quiet_of_installs {c : HostCall} (h : c.installs) : c.quiet = false := by
  cases c <;> first | rfl | cases h

/-- The phases in which a deployment may create or start a container. -/
theorem phase_of_installs {c : HostCall} (hallows : phase.allows networkName c)
    (hinstalls : c.installs) :
    (phase = .ensured ∨ ∃ dockerId, phase = .owning dockerId) ∧
      ∀ request, c = .createContainer request → request.networkMode = networkName := by
  have hquiet := quiet_of_installs hinstalls
  cases phase with
  | outset =>
    rw [hallows] at hinstalls
    cases hinstalls
  | ensured =>
    apply And.intro (.inl rfl)
    rintro request rfl
    obtain hcall | ⟨_, hcall⟩ | ⟨request', hcall, hmode, -⟩ := hallows
    · cases hcall
    · cases hcall
    · obtain rfl := HostCall.createContainer.inj hcall
      exact hmode
  | owning dockerId =>
    apply And.intro (.inr ⟨dockerId, rfl⟩)
    rintro request rfl
    rcases hallows with hcall | ⟨_, hcall⟩ | hcall <;> cases hcall
  | «over» =>
    rw [hallows] at hquiet
    cases hquiet

variable [DecidableEq ι]

/-- A sweep removes no network that a deployment needs. -/
theorem Standing.sweep (h : Standing law config activities events pool notes)
    (hundisputed : Undisputed config activities events pool)
    (step : Pool.Step (hostMachine law) pool e pool')
    (hsweep : (activities e.thread).isDeploy = false) :
    Standing law config activities (events ++ [e]) pool' notes := by
  obtain ⟨k, hnext, hx, hself, hothers, hstate⟩ := step.inv
  have hsweeping := h.sweeps e.thread hsweep
  rw [hnext] at hsweeping
  obtain ⟨hcall, hrest⟩ := hsweeping
  have hne : ∀ i, (activities i).isDeploy → i ≠ e.thread :=
    fun _ hdeploy ↦ (ne_of_isDeploy hsweep hdeploy).symm
  have hserved : pool'.state = (respondHost e.call e.choice pool.state).2 := hstate
  constructor
  · intro i hdeploy
    rw [hothers i (hne i hdeploy)]
    exact (h.deploys i hdeploy).stable (fun _ _ _ _ _ _ ↦ trivial) trivial
  · intro i hi
    by_cases hthread : i = e.thread
    · rw [hthread, hself]
      exact (hrest _).2
    · rw [hothers i hthread]
      exact h.sweeps i hi
  · intro i networkName hnetwork
    have hi := hne i (isDeploy_of_network hnetwork)
    have hheld := h.held i networkName hnetwork
    have hcalm : Needs (pool.threads i) (notes i) → ¬ Detaches networkName e.call := by
      intro hneeds hdetaches
      have hpoised : Poised networkName (pool.threads e.thread) := by
        rw [hnext]
        exact poised_of_detaches hdetaches
      cases hphase : notes i with
      | outset =>
        rw [hphase] at hneeds
        exact hneeds
      | ensured =>
        rw [hphase] at hheld hneeds
        exact hundisputed i networkName hnetwork (hheld.exposed hneeds) e.thread hpoised
      | owning dockerId => exact hheld.calm dockerId hphase e.thread hsweep hpoised
      | «over» =>
        rw [hphase] at hneeds
        exact hneeds
    apply hheld.other (Ne.symm hi) (hothers i hi)
    · intro hneeds hmem
      rw [hserved]
      exact networks_kept (fun heq ↦ hcalm hneeds (.inl heq)) hmem
    · intro dockerId _ hrefers
      rw [hserved]
      apply (refers_congr _).mpr hrefers
      obtain hquiet | ⟨name, hcall | ⟨container, hcall⟩⟩ := hcall
      · exact fixedOf_kept (spares_of_quiet hquiet).1 (spares_of_quiet hquiet).2
      · rw [hcall]
        exact fixedOf_kept (nofun) nofun
      · rw [hcall]
        exact fixedOf_kept (nofun) nofun
    · intro dockerId hphase j hj
      by_cases hthread : j = e.thread
      · rw [hthread, hself]
        intro hpoised
        obtain hclear | hdetaches := (hrest _).1 networkName hpoised
        · exact not_clear (hheld.refers dockerId hphase) hclear
        · apply hcalm _ hdetaches
          rw [hphase]
          trivial
      · rw [hothers j hthread]
        exact hheld.calm dockerId hphase j hj
  · exact h.unconnected
  · exact h.distinct

/-- No deployment removes a network. -/
theorem not_detaches {c : HostCall} (hallows : phase.allows name c) : ¬ Detaches networkName c := by
  intro hdetaches
  cases phase with
  | outset => rcases hdetaches with rfl | ⟨_, rfl⟩ <;> cases hallows
  | ensured =>
    rcases hdetaches with rfl | ⟨_, rfl⟩ <;>
      rcases hallows with hcall | ⟨_, hcall⟩ | ⟨_, hcall, -⟩ <;> cases hcall
  | owning dockerId =>
    rcases hdetaches with rfl | ⟨_, rfl⟩ <;>
      rcases hallows with hcall | ⟨_, hcall⟩ | hcall <;> cases hcall
  | «over» => rcases hdetaches with rfl | ⟨_, rfl⟩ <;> cases hallows

theorem networks_allowed {c : HostCall} {x : HostChoice} (hallows : phase.allows name c)
    (hmem : networkName ∈ host.networks) : networkName ∈ (respondHost c x host).2.networks :=
  networks_kept (fun h ↦ not_detaches hallows (.inl h)) hmem

/-- A deployment removes its own container at most. -/
theorem refers_allowed {c : HostCall} {x : HostChoice} {dockerId : String}
    (hx : permitsHost c x host) (hallows : phase.allows name c) (hown : phase ≠ .owning dockerId)
    (hrefers : host.Refers dockerId networkName) :
    (respondHost c x host).2.Refers dockerId networkName := by
  apply (refers_congr _).mpr hrefers
  by_cases hcreate : ∃ request, c = .createContainer request
  · obtain ⟨request, rfl⟩ := hcreate
    rw [fixedOf_create, if_neg]
    rintro ⟨-, rfl⟩
    exact hx.2.2 (mem_of_refers hrefers)
  by_cases hremove : ∃ id force, c = .remove id force
  · obtain ⟨id, force, rfl⟩ := hremove
    cases phase with
    | outset => cases hallows
    | ensured => rcases hallows with hquiet | ⟨_, h⟩ | ⟨_, h, -⟩ <;> simp_all [HostCall.quiet]
    | owning own =>
      have hcall : HostCall.remove id force = .remove own true := by
        obtain hquiet | ⟨_, h⟩ | h := hallows
        · cases hquiet
        · cases h
        · exact h
      cases hcall
      rw [fixedOf_remove, if_neg]
      rintro ⟨-, rfl⟩
      exact hown rfl
    | «over» => cases hallows
  · apply fixedOf_kept
    · exact fun request heq ↦ hcreate ⟨request, heq⟩
    · exact fun id force heq ↦ hremove ⟨id, force, heq⟩

/-- The call of a deployment that does not end its phase. -/
theorem Held.stays (h : Held activities networkName e.thread events pool phase)
    (step : Pool.Step (hostMachine law) pool e pool')
    (hdeploy : (activities e.thread).isDeploy)
    (hcreate : ∀ request, e.call ≠ .createContainer request)
    (hnetworks : networkName ∈ pool.state.networks → networkName ∈ pool'.state.networks)
    (hrefers : ∀ dockerId, phase = .owning dockerId → pool.state.Refers dockerId networkName →
      pool'.state.Refers dockerId networkName) :
    Held activities networkName e.thread (events ++ [e]) pool' phase := by
  obtain ⟨k, hnext, -, hself, hothers, -⟩ := step.inv
  constructor
  · exact fun hphase ↦ (h.unbuilt hphase).snoc fun _ ↦ hcreate
  · intro hphase
    obtain ⟨e', he', hcall⟩ := h.asked hphase
    exact ⟨e', mem_append_left _ he', hcall⟩
  · intro hneeds
    apply hnetworks
    apply h.network
    cases phase with
    | ensured =>
      intro hasks
      rw [hnext] at hasks
      apply hneeds
      rw [hself]
      exact hasks.2 _
    | outset => exact hneeds
    | owning dockerId => exact hneeds
    | «over» => exact hneeds
  · exact fun dockerId hphase ↦ hrefers dockerId hphase (h.refers dockerId hphase)
  · intro dockerId hphase j hj
    rw [hothers j (ne_of_isDeploy hj hdeploy)]
    exact h.calm dockerId hphase j hj

/-- A deployment that creates its container does so undisturbed, and owns it. -/
theorem Held.creates {request : ContainerRequest}
    (h : Held activities networkName e.thread events pool .ensured)
    (step : Pool.Step (hostMachine law) pool e pool')
    (hdeploy : (activities e.thread).isDeploy) (hcall : e.call = .createContainer request)
    (hmode : request.networkMode = networkName)
    (hmanaged : request.labels.lookup managedLabel.1 = some managedLabel.2)
    (hundisputed : Exposed networkName e.thread events pool →
      ∀ j, ¬ Poised networkName (pool.threads j))
    {dockerId : String} (hdone : e.choice.failure = none) (hid : e.choice.dockerId = dockerId) :
    Held activities networkName e.thread (events ++ [e]) pool' (.owning dockerId) := by
  obtain ⟨k, hnext, hx, hself, hothers, hstate⟩ := step.inv
  have hserved : pool'.state = (respondHost e.call e.choice pool.state).2 := hstate
  have hneeds : Needs (pool.threads e.thread) .ensured := by
    intro hasks
    rw [hnext] at hasks
    have hinstalls := hasks.1
    rw [hcall] at hinstalls
    cases hinstalls
  constructor
  · rintro (h | h) <;> cases h
  · exact fun h ↦ nomatch h
  · intro _
    rw [hserved]
    apply networks_kept _ (h.network hneeds)
    rw [hcall]
    exact fun h ↦ nomatch h
  · rintro _ ⟨⟩
    refine ⟨⟨request.labels, some request.networkMode, request.mounts⟩, ?_, hmanaged,
      congrArg some hmode⟩
    rw [hserved, hcall, fixedOf_create]
    exact if_pos ⟨done_of_none hdone, hid.symm⟩
  · intro _ _ j hj
    rw [hothers j (ne_of_isDeploy hj hdeploy)]
    exact hundisputed (h.exposed hneeds) j

/-- What the phase says after a call of the deployment itself. -/
theorem Held.own (h : Held activities networkName e.thread events pool phase)
    (step : Pool.Step (hostMachine law) pool e pool')
    (hdeploy : (activities e.thread).isDeploy) (hallows : phase.allows networkName e.call)
    (hundisputed : Exposed networkName e.thread events pool →
      ∀ j, ¬ Poised networkName (pool.threads j)) :
    Held activities networkName e.thread (events ++ [e]) pool'
      (phase.after e.call (respondHost e.call e.choice pool.state).1) := by
  obtain ⟨k, hnext, hx, hself, hothers, hstate⟩ := step.inv
  have hserved : pool'.state = (respondHost e.call e.choice pool.state).2 := hstate
  have hnetworks : networkName ∈ pool.state.networks → networkName ∈ pool'.state.networks := by
    rw [hserved]
    exact networks_allowed hallows
  -- Neither a quiet call nor a start touches what refers to the network.
  have hstays : (∀ request, e.call ≠ .createContainer request) →
      (∀ id force, e.call ≠ .remove id force) →
      Held activities networkName e.thread (events ++ [e]) pool' phase := by
    intro hcreate hremove
    apply h.stays step hdeploy hcreate hnetworks
    intro dockerId _ hrefers
    rw [hserved]
    exact (refers_congr (fixedOf_kept hcreate hremove)).mpr hrefers
  have hquietly : e.call.quiet = true →
      Held activities networkName e.thread (events ++ [e]) pool'
        (phase.after e.call (respondHost e.call e.choice pool.state).1) := by
    intro hquiet
    rw [after_quiet hquiet]
    exact hstays (spares_of_quiet hquiet).1 (spares_of_quiet hquiet).2
  have hpermits : permitsHost e.call e.choice pool.state := hx.1
  obtain ⟨thread, call, choice⟩ := e
  cases phase with
  | outset =>
    obtain rfl : call = .createNetwork networkName := hallows
    simp only [Phase.after]
    split
    next hensures =>
      constructor
      · exact fun _ ↦ (h.unbuilt (.inl rfl)).snoc fun _ _ h ↦ nomatch h
      · exact fun _ ↦ ⟨_, mem_append_right _ (mem_singleton_self _), rfl, rfl⟩
      · intro _
        rw [hserved]
        exact mem_createNetwork hpermits hensures
      · exact fun _ h ↦ nomatch h
      · exact fun _ h ↦ nomatch h
    next => exact .over
  | ensured =>
    obtain hquiet | ⟨dockerId, rfl⟩ | ⟨request, rfl, hmode, hmanaged⟩ := hallows
    · exact hquietly hquiet
    · exact hstays (fun _ h ↦ nomatch h) fun _ _ h ↦ nomatch h
    · cases hfailure : choice.failure with
      | some e =>
        simp only [respondHost_of_some hfailure]
        exact .over
      | none =>
        simp only [respondHost_of_none hfailure]
        exact h.creates step hdeploy rfl hmode hmanaged hundisputed hfailure rfl
  | owning own =>
    obtain hquiet | ⟨dockerId, rfl⟩ | rfl := hallows
    · exact hquietly hquiet
    · exact hstays (fun _ h ↦ nomatch h) fun _ _ h ↦ nomatch h
    · exact .over
  | «over» => exact hquietly hallows

/-- A container comes to be owned by its creation only. -/
theorem owning_of_after {c : HostCall} {x : HostChoice} {dockerId : String}
    (h : phase.after c (respondHost c x host).1 = .owning dockerId) : phase = .owning dockerId ∨
      ∃ request, c = .createContainer request ∧ x.dockerId = dockerId := by
  cases phase with
  | outset =>
    cases c <;> simp only [Phase.after, reduceCtorEq] at h
    split at h <;> cases h
  | ensured =>
    cases c <;> simp only [Phase.after, reduceCtorEq] at h
    case createContainer request =>
      cases hfailure : x.failure with
      | some e =>
        rw [respondHost_of_some hfailure] at h
        cases h
      | none =>
        rw [respondHost_of_none hfailure] at h
        exact .inr ⟨request, rfl, Phase.owning.inj h⟩
  | owning own =>
    cases c <;> simp only [Phase.after, reduceCtorEq] at h
    all_goals exact .inl h
  | «over» => cases c <;> cases h

/-- A deployment disturbs neither itself nor another. -/
theorem Standing.deploy (h : Standing law config activities events pool notes)
    (hundisputed : Undisputed config activities events pool)
    (step : Pool.Step (hostMachine law) pool e pool')
    (hdeploy : (activities e.thread).isDeploy = true) :
    Standing law config activities (events ++ [e]) pool'
      (Function.update notes e.thread
        ((notes e.thread).after e.call (respondHost e.call e.choice pool.state).1)) := by
  obtain ⟨k, hnext, hx, hself, hothers, hstate⟩ := step.inv
  have hserved : pool'.state = (respondHost e.call e.choice pool.state).2 := hstate
  have hamong := h.deploys e.thread hdeploy
  rw [hnext] at hamong
  obtain ⟨hallows, hrest⟩ := hamong pool.state trivial e.choice hx trivial
  have hpermits : permitsHost e.call e.choice pool.state := hx.1
  have hheld : ∀ i networkName dockerId, (activities i).network config = some networkName →
      notes i = .owning dockerId → dockerId ∈ pool.state.containers :=
    fun i networkName dockerId hnetwork hphase ↦
      mem_of_refers ((h.held i networkName hnetwork).refers dockerId hphase)
  have hfresh : ∀ i dockerId, i ≠ e.thread → notes i = .owning dockerId →
      (notes e.thread).after e.call (respondHost e.call e.choice pool.state).1 ≠
        .owning dockerId := by
    intro i dockerId hi hphase hafter
    obtain hown | ⟨request, hcall, rfl⟩ := owning_of_after hafter
    · exact hi (h.distinct i e.thread dockerId hphase hown)
    · rw [hcall] at hpermits
      cases hnetwork : (activities i).network config with
      | some networkName =>
        exact hpermits.2.2 (hheld i networkName _ hnetwork hphase)
      | none =>
        rw [h.unconnected i hnetwork] at hphase
        cases hphase
  constructor
  · intro i hi
    by_cases hthread : i = e.thread
    · subst hthread
      rw [update_self, hself, hstate]
      exact hrest
    · rw [update_of_ne hthread, hothers i hthread]
      exact (h.deploys i hi).stable (fun _ _ _ _ _ _ ↦ trivial) trivial
  · intro i hi
    rw [hothers i (ne_of_isDeploy hi hdeploy)]
    exact h.sweeps i hi
  · intro i networkName hnetwork
    by_cases hthread : i = e.thread
    · subst hthread
      rw [update_self]
      rw [hnetwork] at hallows
      exact (h.held _ networkName hnetwork).own step hdeploy hallows
        (hundisputed e.thread networkName hnetwork)
    · rw [update_of_ne hthread]
      apply (h.held i networkName hnetwork).other (Ne.symm hthread) (hothers i hthread)
      · intro _ hmem
        rw [hserved]
        exact networks_allowed hallows hmem
      · intro dockerId hphase hrefers
        rw [hserved]
        apply refers_allowed hpermits hallows _ hrefers
        exact fun hown ↦ hthread (h.distinct i e.thread dockerId hphase hown)
      · intro dockerId hphase j hj
        rw [hothers j (ne_of_isDeploy hj hdeploy)]
        exact (h.held i networkName hnetwork).calm dockerId hphase j hj
  · intro i hnetwork
    by_cases hthread : i = e.thread
    · subst hthread
      rw [update_self]
      have hphase := h.unconnected _ hnetwork
      rw [hphase] at hallows ⊢
      exact after_quiet hallows
    · rw [update_of_ne hthread]
      exact h.unconnected i hnetwork
  · intro i j dockerId hi hj
    by_cases hi' : i = e.thread
    · by_cases hj' : j = e.thread
      · exact hi'.trans hj'.symm
      · subst hi'
        rw [update_self] at hi
        rw [update_of_ne hj'] at hj
        exact absurd hi (hfresh j dockerId hj' hj)
    · by_cases hj' : j = e.thread
      · subst hj'
        rw [update_self] at hj
        rw [update_of_ne hi'] at hi
        exact absurd hj (hfresh i dockerId hi' hi)
      · rw [update_of_ne hi'] at hi
        rw [update_of_ne hj'] at hj
        exact h.distinct i j dockerId hi hj

/-- The phases of the deployments after a run in which none was exposed to a removal. -/
theorem Standing.run
    (run : Pool.Run (hostMachine law) (networkThreads config platform activities host) events pool)
    (hundisputed : ∀ before after pool₁, events = before ++ after →
      Pool.Run (hostMachine law) (networkThreads config platform activities host) before pool₁ →
      Undisputed config activities before pool₁) :
    ∃ notes, Standing law config activities events pool notes := by
  induction run with
  | start => exact ⟨_, standing_networkThreads⟩
  | @step events pool₁ pool₂ e run last ih =>
    obtain ⟨notes, hstanding⟩ := ih fun before after pool' hsplit hrun ↦
      hundisputed before (after ++ [e]) pool' (by rw [hsplit, append_assoc]) hrun
    have hbefore := hundisputed events [e] pool₁ rfl run
    cases hdeploy : (activities e.thread).isDeploy with
    | true => exact ⟨_, hstanding.deploy hbefore last hdeploy⟩
    | false => exact ⟨_, hstanding.sweep hbefore last hdeploy⟩

/--
Any number of deployments, sweeps and releases. If no removal of a network is ever under way
while a deployment is exposed in it, every deployment that creates or starts a container finds the
network there that it ensured.
-/
theorem connected_of_undisputed
    (run : Pool.Run (hostMachine law) (networkThreads config platform activities host) events pool)
    (hundisputed : ∀ before after pool₁, events = before ++ after →
      Pool.Run (hostMachine law) (networkThreads config platform activities host) before pool₁ →
      Undisputed config activities before pool₁)
    (step : Pool.Step (hostMachine law) pool e pool') {req : DeployRequest}
    (hdeploy : activities e.thread = .deploy req) (hinstalls : e.call.installs = true) :
    Connected config (activities e.thread) e.call pool.state := by
  obtain ⟨notes, hstanding⟩ := Standing.run run hundisputed
  obtain ⟨k, hnext, hx, -⟩ := step.inv
  have hamong := hstanding.deploys e.thread (by rw [hdeploy]; rfl)
  rw [hnext] at hamong
  have hallows : (notes e.thread).allows (((activities e.thread).network config).getD "") e.call :=
    (hamong pool.state trivial e.choice hx trivial).1
  cases hnetwork : (activities e.thread).network config with
  | none =>
    rw [hstanding.unconnected e.thread hnetwork] at hallows
    have hquiet := quiet_of_installs hinstalls
    rw [hallows] at hquiet
    cases hquiet
  | some networkName =>
    have hheld := hstanding.held e.thread networkName hnetwork
    rw [hnetwork] at hallows
    obtain ⟨hphase, hmode⟩ := phase_of_installs hallows hinstalls
    refine ⟨networkName, hnetwork, hheld.network ?_, hmode⟩
    rcases hphase with hphase | ⟨dockerId, hphase⟩
    · rw [hphase, hnext]
      intro hasks
      rw [hasks.1] at hinstalls
      cases hinstalls
    · rw [hphase]
      trivial

end Standing

/-! ## A sweep between the two -/

namespace Sample

def plainDeployment : DeployRequest where
  toAppRequest := appRequest
  volumes := []
  mcpBinding := none
  mcpV3Binding := none

/-- The network of the workspace is left from long ago. -/
def emptiedHost : Host :=
  { emptyHost.putNetwork "privos-ws-a-apps" ⟨some 0, []⟩ with clock := 7200000 }

/-- A deployment, and the sweep of every hour. -/
def deployAndSweep : Bool → NetworkActivity
  | true => .deploy plainDeployment
  | false => .sweep 3600000

instance (c : HostCall) (x : HostChoice) (host : Host) : Decidable (freely.permits c x host) :=
  inferInstanceAs (Decidable (permitsHost c x host ∧ True))

/-- The sweep comes once the deployment has ensured its network. -/
def sweptBetween : List (NetworkEvent Bool) × NetworkPool Bool :=
  Pool.play freely (fun _ ↦ obliging)
    (List.replicate 4 true ++ List.replicate 6 false ++ List.replicate 5 true)
    (networkThreads Sample.config Sample.platform deployAndSweep emptiedHost)

/-- The next call of the program creates or starts a container. -/
def installsNext (p : HostProgram Unit) : Bool :=
  match p with
  | .call c _ => c.installs
  | _ => false

theorem call_of_installsNext {p : HostProgram Unit} (h : installsNext p = true) :
    ∃ c k, p = .call c k ∧ c.installs = true := by
  cases p with
  | pure a => cases h
  | throw e => cases h
  | call c k => exact ⟨c, k, rfl, h⟩

theorem installsNext_sweptBetween : installsNext (sweptBetween.2.threads true) = true := by
  decide +kernel

theorem run_sweptBetween : Pool.Run freely
    (networkThreads Sample.config Sample.platform deployAndSweep emptiedHost) sweptBetween.1
    sweptBetween.2 :=
  Pool.run_play _ _ _

/-- The deployment on its own, up to the creation of its container. -/
def deployedAlone : List (NetworkEvent Unit) × NetworkPool Unit :=
  Pool.play freely (fun _ ↦ obliging) (List.replicate 9 ())
    (networkThreads Sample.config Sample.platform (fun _ ↦ .deploy plainDeployment) emptiedHost)

theorem run_deployedAlone : Pool.Run freely
    (networkThreads Sample.config Sample.platform (fun _ ↦ .deploy plainDeployment) emptiedHost)
    deployedAlone.1 deployedAlone.2 :=
  Pool.run_play _ _ _

end Sample

/-- A deployment is never about to remove a network. -/
theorem not_poised_deploy {host : Host} {networkName : String} {phase : Phase}
    {p : HostProgram Unit} (h : Among Sample.freely (phases name) (fun _ _ _ ↦ True) p phase host) :
    ¬ Poised networkName p := by
  cases p with
  | pure a => exact id
  | throw e => exact id
  | call c k =>
    intro hpoised
    have hallows : phase.allows name c := (h host trivial (obliging host)
      (Sample.lawful c host) trivial).1
    exact not_detaches hallows (detaches_of_poised hpoised)

theorem undisputed_alone {events : List (NetworkEvent Unit)} {pool : NetworkPool Unit}
    (run : Pool.Run Sample.freely (networkThreads Sample.config Sample.platform
      (fun _ ↦ .deploy Sample.plainDeployment) Sample.emptiedHost) events pool) :
    Undisputed Sample.config (fun _ ↦ .deploy Sample.plainDeployment) events pool := by
  have team : Team (ι := Unit) Sample.freely (fun _ ↦ phases "privos-ws-a-apps")
      (fun _ _ _ _ ↦ True) (fun _ _ ↦ True) :=
    ⟨fun _ _ _ _ _ _ _ ↦ trivial, fun _ _ _ _ _ _ _ _ _ _ _ ↦ trivial,
      fun _ _ _ _ _ _ _ _ _ ↦ trivial⟩
  have hstanding : Standing (fun _ _ ↦ True) Sample.config
      (fun _ : Unit ↦ .deploy Sample.plainDeployment) []
      (networkThreads Sample.config Sample.platform
        (fun _ ↦ .deploy Sample.plainDeployment) Sample.emptiedHost) _ :=
    standing_networkThreads
  obtain ⟨notes, hstands⟩ := Pool.Run.together team run (fun _ _ _ _ _ _ _ _ ↦ trivial)
    ⟨fun i ↦ hstanding.deploys i rfl, trivial⟩
  exact fun _ _ _ _ j ↦ not_poised_deploy (hstands.threads j)

/-- With nobody else the container of a deployment is created in its network. -/
theorem connected_of_undisputed_alone : ∃ e pool',
    Pool.Step Sample.freely Sample.deployedAlone.2 e pool' ∧ e.call.installs = true ∧
      Connected Sample.config (.deploy Sample.plainDeployment) e.call
        Sample.deployedAlone.2.state := by
  have hready : Sample.installsNext (Sample.deployedAlone.2.threads ()) = true := by decide +kernel
  obtain ⟨c, k, hnext, hinstalls⟩ := Sample.call_of_installsNext hready
  have hstep := Pool.Step.call hnext (Sample.lawful c Sample.deployedAlone.2.state)
  exact ⟨_, _, hstep, hinstalls, connected_of_undisputed Sample.run_deployedAlone
    (fun _ _ _ _ run ↦ undisputed_alone run) hstep rfl hinstalls⟩

/-- The container is created after its network has been taken for unused. -/
theorem network_swept : ¬ ∀ (ι : Type) (_ : DecidableEq ι) (law : HostCall → HostChoice → Prop)
    (config : HostConfig) (platform : HostPlatform) (activities : ι → NetworkActivity) (host : Host)
    (events : List (NetworkEvent ι)) (pool pool' : NetworkPool ι) (e : NetworkEvent ι)
    (req : DeployRequest),
    Pool.Run (hostMachine law) (networkThreads config platform activities host) events pool →
    Pool.Step (hostMachine law) pool e pool' → activities e.thread = .deploy req →
    e.call.installs = true → Connected config (activities e.thread) e.call pool.state := by
  intro hclaim
  obtain ⟨c, k, hnext, hinstalls⟩ := Sample.call_of_installsNext Sample.installsNext_sweptBetween
  have hstep := Pool.Step.call hnext (Sample.lawful c Sample.sweptBetween.2.state)
  obtain ⟨networkName, hnetwork, hmem, -⟩ := hclaim Bool inferInstance _ _ _ _ _ _ _ _ _
    Sample.plainDeployment Sample.run_sweptBetween hstep rfl hinstalls
  obtain rfl := Option.some.inj hnetwork
  have hgone : "privos-ws-a-apps" ∉ Sample.sweptBetween.2.state.networks := by
    decide +kernel
  exact hgone hmem

end PrivosCluster.AgentHost
