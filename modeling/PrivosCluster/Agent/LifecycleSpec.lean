import PrivosCluster.Agent.HostSpec
import PrivosCluster.Agent.Lifecycle

/-!
# What the steps of a lifecycle do to the host
-/

namespace PrivosCluster.AgentHost

open AsyncProgram Agent Routing LifecycleService ContainerManager DockerState McpBrokerManager

variable {law : HostCall → HostChoice → Prop} {config : HostConfig} {host : Host}
  {containerId dockerId : String} {workspaceId : Option String} {record : HostContainer}

/-! ## Lookups and inspections -/

/-- The container that the view shows under an id, if it shows one. -/
theorem traces_getContainerOr404 : Traces (hostMachine law) (fun r host' calls ↦ host' = host ∧
    (∀ event ∈ calls,
      event.1 = .listContainers (scopeLabels containerId workspaceId)) ∧
    ∀ found, r = .ok found → (activeOf
      (host.matching (scopeLabels containerId workspaceId))).head? = some found)
    (getContainerOr404 config containerId workspaceId) host := by
  apply traces_getById.bind
  · intro found host' calls hlooked
    obtain ⟨-, hfound, -⟩ := hlooked.answered
    have hasked : ∀ event ∈ calls ++ [],
        event.1 = .listContainers (scopeLabels containerId workspaceId) := by
      simpa using hlooked.asked
    cases found with
    | some found =>
      refine ⟨hlooked.unchanged, hasked, ?_⟩
      rintro _ ⟨⟩
      exact hfound.symm
    | none => exact ⟨hlooked.unchanged, hasked, fun _ h ↦ nomatch h⟩
  · intro e host' calls hlooked
    exact ⟨hlooked.unchanged, hlooked.asked, fun _ h ↦ nomatch h⟩

theorem map_mounts (mounts : List DockerStateMapper.DockerMount) :
    (mounts.filterMap fun mount ↦ (truthy mount.name).bind fun name ↦
      if mount.type = some "volume" then some (VolumeMount.mk name (mount.destination.getD ""))
      else none).map (·.dockerVolumeName) = volumesOf mounts := by
  rw [List.map_filterMap]
  apply List.filterMap_congr
  intro mount _
  cases truthy mount.name with
  | none => simp
  | some name => by_cases h : mount.type = some "volume" <;> simp [h]

theorem inspect_respond (hfound : host.containers.lookup dockerId = some record) {x : HostChoice} :
    (respondHost (.inspect dockerId) x host).2 = host ∧
      match x.failure with
      | none => (respondHost (.inspect dockerId) x host).1 = .ok record
      | some e => (respondHost (.inspect dockerId) x host).1 = .error { toCallError := e } := by
  cases hfailure : x.failure with
  | none => simp [respondHost_of_none hfailure, serve, hfound]
  | some e => simp [respondHost_of_some hfailure, serve]

theorem traces_inspect (hfound : host.containers.lookup dockerId = some record) :
    Traces (hostMachine law) (fun r host' calls ↦ host' = host ∧ ∃ x,
      calls = [(.inspect dockerId, x)] ∧ (∀ info, r = .ok info → info = record ∧ x.failure = none) ∧
        ∀ e, r = .error e → x.failure ≠ none) (await (.inspect dockerId)) host := by
  apply (traces_await (.inspect dockerId)).imp
  rintro r host' calls ⟨x, -, rfl, rfl, rfl⟩
  obtain ⟨hhost, hanswer⟩ := inspect_respond hfound (x := x)
  refine ⟨hhost, x, rfl, ?_⟩
  cases hfailure : x.failure with
  | none =>
    rw [hfailure] at hanswer
    rw [hanswer]
    exact ⟨fun _ h ↦ ⟨(Except.ok.inj h).symm, rfl⟩, nofun⟩
  | some e =>
    rw [hfailure] at hanswer
    rw [hanswer]
    exact ⟨(nofun), fun _ _ ↦ Option.some_ne_none e⟩

theorem traces_getExistingMounts (hfound : host.containers.lookup dockerId = some record) :
    Traces (hostMachine law) (fun r host' calls ↦ host' = host ∧ ∃ x,
      calls = [(.inspect dockerId, x)] ∧
        (∀ mounts, r = .ok mounts →
          mounts.map (·.dockerVolumeName) = volumesOf record.mounts ∧ x.failure = none) ∧
        ∀ e, r = .error e → x.failure ≠ none) (getExistingMounts dockerId) host := by
  apply (traces_inspect hfound).bind
  · rintro info host' calls ⟨hhost, x, rfl, hok, -⟩
    obtain ⟨rfl, hnone⟩ := hok info rfl
    refine ⟨hhost, x, rfl, ?_, nofun⟩
    rintro mounts ⟨⟩
    exact ⟨map_mounts _, hnone⟩
  · rintro e host' calls ⟨hhost, x, rfl, -, herror⟩
    exact ⟨hhost, x, rfl, (nofun), fun _ _ ↦ herror e rfl⟩

/-! ## Idle programs -/

/-- The call changes no more than files and the clock. -/
def HostCall.idle (c : HostCall) : Bool :=
  !(c.movesContainers || c.movesVolumes || c.movesNetworks || c.movesServers)

theorem moves_of_idle {c : HostCall} (h : c.idle) :
    c.movesContainers = false ∧ c.movesVolumes = false ∧ c.movesNetworks = false ∧
      c.movesServers = false := by
  simpa [HostCall.idle, and_assoc] using h

/-- An idle call that is no inspection of a container. -/
def HostCall.blind : HostCall → Bool
  | .inspect _ => false
  | c => c.idle

/-- A program whose calls are all idle. -/
abbrev Idle {α : Type} (p : HostProgram α) : Prop := Asks (fun c : HostCall ↦ c.idle = true) p

/-- A program of idle calls that inspects no container. -/
abbrev Blind {α : Type} (p : HostProgram α) : Prop := Asks (fun c : HostCall ↦ c.blind = true) p

theorem idle_of_blind {c : HostCall} (h : c.blind) : c.idle := by
  cases c <;> first | exact h | cases h

theorem Blind.idle {α : Type} {p : HostProgram α} (h : Blind p) : Idle p :=
  h.imp fun _ hc ↦ idle_of_blind hc

theorem blind_getById : Blind (DockerState.getById config containerId workspaceId) := by
  apply Asks.bind Asks.throwIf
  intro _
  apply Asks.bind (asks_await (by rfl))
  intro _
  exact Asks.pure

theorem blind_getContainerOr404 : Blind (getContainerOr404 config containerId workspaceId) := by
  apply Asks.bind blind_getById
  intro found
  cases found with
  | some found => exact Asks.pure
  | none => trivial

variable {domain ignored : Option String} {req : DeployRequest}

theorem blind_findByHost {subdomain : String} :
    Blind (DockerState.findByHost subdomain domain) := by
  apply Asks.bind (asks_await (by rfl))
  intro _
  exact Asks.pure

theorem idle_getExistingMounts : Idle (getExistingMounts dockerId) := by
  apply Asks.bind (asks_await (by rfl))
  intro _
  exact Asks.pure

theorem blind_pullImage {image tag : String} {digest : Option String} :
    Blind (pullImage image tag digest) := by
  apply Asks.bind Asks.ofExcept
  intro repoTag
  apply Asks.bind
  · unfold isCached
    split
    · apply (asks_await (by rfl)).settle.bind
      intro _
      exact Asks.pure
    · exact Asks.pure
  intro cached
  apply Asks.onlyIf
  apply Asks.tryCatch
  · apply Asks.bind (asks_await (by rfl))
    intro _
    exact (asks_await (by rfl)).tryCatch fun _ ↦ trivial
  · intro e
    split <;> trivial

theorem blind_assertHostAvailable {subdomain : Option String} :
    Blind (assertHostAvailable subdomain domain ignored) := by
  apply Asks.forSome
  intro subdomain
  apply Asks.bind blind_findByHost
  intro existing
  exact Asks.forSome fun _ ↦ Asks.throwIf

theorem blind_assertResourceBudget {platform : HostPlatform} {resources : Resources} :
    Blind (assertResourceBudget config platform resources ignored workspaceId) := by
  apply Asks.bind
  · unfold requestedResources
    split
    · exact Asks.pure
    · apply Asks.bind blind_getById
      intro _
      exact Asks.pure
  intro req
  apply Asks.bind (asks_await (by rfl))
  intro short
  exact Asks.forSome fun _ ↦ trivial

theorem idle_getInternalUrl {port : Int} : Idle (getInternalUrl dockerId port) := by
  have hattempt : Idle (getInternalUrl.attempt dockerId port) := by
    apply Asks.bind (asks_await (by rfl))
    intro info
    split
    · exact Asks.pure
    · trivial
  exact hattempt.tryCatch fun _ ↦ hattempt.tryCatch fun _ ↦ hattempt

theorem blind_prepare {replicaId : String} : Blind (prepare config replicaId) := by
  apply Asks.bind Asks.ofExcept
  intro directory
  apply Asks.bind (asks_await (by rfl))
  intro _
  exact Asks.pure

theorem blind_prepareBroker : Blind (prepareBroker config req) := by
  unfold prepareBroker
  split
  · exact Asks.pure
  · exact Asks.bind blind_prepare fun _ ↦ Asks.pure

/-- What is undone where no container is known. -/
theorem asks_rollBack {P : HostCall → Prop} {names : List String} {e : HostError}
    (hvolume : ∀ name, P (.removeVolume name))
    (hcleanup : ∀ replicaId, Asks P (cleanup config replicaId)) :
    Asks P (rollBack config req none names e) := by
  apply Asks.bind Asks.pure
  intro _
  apply Asks.bind
  · apply Asks.forEach
    intro name _
    apply Asks.bind _ fun _ ↦ Asks.pure
    apply ((asks_await (hvolume name)).tryCatch _).settle
    intro e
    split <;> trivial
  intro _
  apply Asks.bind
  · apply Asks.forSome
    intro replicaId
    exact (hcleanup replicaId).settle.bind fun _ ↦ Asks.pure
  · exact fun _ ↦ trivial

theorem blind_persistFinalizedV3 {platform : HostPlatform} {binding : McpRuntimeBindingV3}
    {networkName : String} :
    Blind (persistFinalizedV3 config platform binding networkName) := by
  apply Asks.bind Asks.ofExcept
  intro _
  apply Asks.bind (Asks.onlyIf (asks_await (by rfl)))
  intro _
  apply Asks.bind blind_prepare
  intro _
  apply Asks.forEach
  intro file _
  apply Asks.tryCatch
  · apply Asks.bind
    · cases file with
      | store => exact asks_await (by rfl)
      | legacy =>
        apply Asks.bind (asks_await (by rfl))
        intro _
        exact Asks.pure
    intro raw
    apply Asks.bind
    · unfold parsed
      split
      · exact Asks.pure
      · trivial
    intro existing
    exact Asks.throwIf
  · intro e
    split
    · trivial
    · cases file with
      | store => exact asks_await (by rfl)
      | legacy => exact asks_await (by rfl)

section Restoration

variable {platform : HostPlatform} {replicaId : String}

theorem blind_parsed {raw : String} : Blind (parsed platform raw) := by
  unfold parsed
  split
  · exact Asks.pure
  · trivial

theorem blind_readFile {file : McpBrokerManager.BindingFile} :
    Blind (file.read replicaId) := by
  cases file with
  | store => exact asks_await (by rfl)
  | legacy =>
    apply Asks.bind (asks_await (by rfl))
    intro _
    exact Asks.pure

theorem blind_readPersistedV3 :
    Blind (readPersistedV3 config platform replicaId) := by
  have hfirst : ∀ file : McpBrokerManager.BindingFile, Blind (do
      let raw ← file.read replicaId
      let persisted ← parsed platform raw
      .pure (McpBrokerManager.PersistedV3.mk persisted raw false)) := by
    intro file
    apply Asks.bind blind_readFile
    intro raw
    apply Asks.bind blind_parsed
    intro persisted
    exact Asks.pure
  have hlegacy : Blind (readLegacyV3 platform replicaId) := by
    apply Asks.bind
    · apply (asks_await (by rfl)).tryCatch
      exact fun e ↦ trivial
    intro file
    apply Asks.bind Asks.throwIf
    intro _
    apply Asks.bind blind_parsed
    intro persisted
    exact Asks.pure
  apply Asks.tryCatch
  · apply Asks.bind Asks.ofExcept
    intro _
    split
    · apply (hfirst _).tryCatch
      intro e
      split
      · trivial
      · exact hlegacy
    · exact hfirst _
  · exact fun e ↦ trivial

end Restoration

/-! ## Programs of one call -/

section Asks

variable {P : HostCall → Prop}

theorem asks_startContainer (h : P (.start dockerId)) :
    Asks P (ContainerManager.startContainer dockerId) := by
  apply (asks_await h).tryCatch
  intro e
  split
  · trivial
  · exact Asks.pure

theorem asks_stopContainer (h : P (.stop dockerId)) :
    Asks P (ContainerManager.stopContainer dockerId) := by
  apply (asks_await h).tryCatch
  intro e
  split
  · exact Asks.pure
  · split
    · exact Asks.pure
    · trivial

theorem asks_removeContainer {force : Bool} (h : P (.remove dockerId force)) :
    Asks P (ContainerManager.removeContainer dockerId force) := by
  apply (asks_await h).tryCatch
  intro e
  split
  · trivial
  · exact Asks.pure

theorem asks_createAppContainer {platform : AgentPlatform} {cfg : CreateContainerConfig}
    (hcreate : ∀ request, P (.createContainer request)) (hinspect : ∀ dockerId, P (.inspect dockerId)) :
    Asks P (createAppContainer config platform cfg) := by
  apply Asks.bind Asks.ofExcept
  intro request
  apply Asks.bind (asks_await (hcreate request))
  intro dockerId
  apply Asks.bind (asks_await (hinspect dockerId))
  intro _
  exact Asks.pure

end Asks

/-! ## Creation -/

/-- How the creation of a container may end. Where the inspection fails, the container is there and
its id is lost. -/
inductive Creation (config : HostConfig) (platform : AgentPlatform) (cfg : CreateContainerConfig)
    (host : Host) : Except HostError String → Host → List (HostCall × HostChoice) → Prop where
  | refused (e : HostError) : Creation config platform cfg host (.error e) host []
  | failed (request : ContainerRequest) (x : HostChoice) (e : HostError) (hx : x.failure ≠ none)
      (hfresh : x.dockerId ∉ host.containers) :
      Creation config platform cfg host (.error e) (respondHost (.createContainer request) x host).2
        [(.createContainer request, x)]
  | lost (request : ContainerRequest) (x y : HostChoice) (e : HostError) (hx : x.failure = none)
      (hy : y.failure ≠ none) (hfresh : x.dockerId ∉ host.containers) :
      Creation config platform cfg host (.error e) (host.put x.dockerId (created request x))
        [(.createContainer request, x), (.inspect x.dockerId, y)]
  | created (request : ContainerRequest) (x y : HostChoice) (hx : x.failure = none)
      (hy : y.failure = none) (hfresh : x.dockerId ∉ host.containers)
      (hrequest : ContainerManager.containerRequest config platform cfg = .ok request) :
      Creation config platform cfg host (.ok x.dockerId) (host.put x.dockerId (created request x))
        [(.createContainer request, x), (.inspect x.dockerId, y)]

variable {cfg : CreateContainerConfig}

theorem traces_createAppContainer {platform : AgentPlatform} :
    Traces (hostMachine law) (Creation config platform cfg host)
      (createAppContainer config platform cfg) host := by
  apply Traces.ofExcept_bind
  · exact fun e _ ↦ .refused e
  intro request hrequest
  apply (traces_await (.createContainer request)).bind
  · rintro dockerId _ _ ⟨x, hx, hanswer, rfl, rfl⟩
    have hfresh : x.dockerId ∉ host.containers := hx.1.2.2
    cases hfailure : x.failure with
    | some e => simp [respondHost_of_some hfailure] at hanswer
    | none =>
      rw [respondHost_of_none hfailure] at hanswer ⊢
      obtain rfl := Except.ok.inj hanswer
      have hfound : (host.put x.dockerId (AgentHost.created request x)).containers.lookup
          x.dockerId = some (AgentHost.created request x) := AList.lookup_insert _
      apply (traces_inspect hfound).bind
      · rintro info _ _ ⟨rfl, y, rfl, hok, -⟩
        exact .created request x y hfailure (hok info rfl).2 hfresh hrequest
      · rintro e _ _ ⟨rfl, y, rfl, -, herror⟩
        exact .lost request x y e hfailure (herror e rfl) hfresh
  · rintro e _ _ ⟨x, hx, hanswer, rfl, rfl⟩
    have hfresh : x.dockerId ∉ host.containers := hx.1.2.2
    cases hfailure : x.failure with
    | some e => exact .failed request x _ (by simp [hfailure]) hfresh
    | none =>
      rw [respondHost_of_none hfailure] at hanswer
      cases hanswer

variable {request : ContainerRequest}

theorem labels_of_containerRequest {platform : AgentPlatform}
    (h : containerRequest config platform cfg = .ok request) :
    buildContainerLabels platform cfg = .ok request.labels := by
  simp only [containerRequest, bind, Except.bind] at h
  split at h
  · cases h
  split at h
  · cases h
  split at h
  · cases h
  next hlabels =>
    split at h
    · cases h
    obtain rfl := Except.ok.inj h
    cases hbuilt : buildContainerLabels platform cfg with
    | ok labels =>
      rw [hbuilt] at hlabels
      exact congrArg Except.ok (Except.ok.inj hlabels)
    | error e =>
      rw [hbuilt] at hlabels
      cases hlabels

/-- The labels of a container name its id and say who manages it. -/
theorem marks_of_containerRequest {platform : AgentPlatform}
    (h : containerRequest config platform cfg = .ok request) :
    request.labels.lookup "privos.id" = some cfg.id ∧
      request.labels.lookup managedLabel.1 = some managedLabel.2 := by
  have hlabels := labels_of_containerRequest h
  unfold buildContainerLabels at hlabels
  split at hlabels
  · cases hlabels
  split at hlabels
  · cases hlabels
  obtain hlabels := Except.ok.inj hlabels
  rw [← hlabels]
  exact ⟨rfl, rfl⟩

/-- A container is created in the network of its workspace. -/
theorem networkMode_of_containerRequest {platform : AgentPlatform}
    (h : containerRequest config platform cfg = .ok request) :
    appNetworkName config cfg.workspaceId = .ok request.networkMode := by
  simp only [containerRequest, bind, Except.bind] at h
  split at h
  · cases h
  split at h
  · cases h
  split at h
  · cases h
  split at h
  · cases h
  next hmode =>
    obtain rfl := Except.ok.inj h
    exact hmode

namespace Sample

def platform : HostPlatform where
  number := fun _ ↦ none
  numberText := fun _ ↦ "1"
  sha256Hex := fun _ ↦ ""
  toISOString := fun _ ↦ some ""
  parseDate := fun _ ↦ none
  now := 0
  toNumber := fun _ ↦ none

/-- A request that leaves everything optional out. -/
def appRequest : AppRequest where
  workspaceId := some "a"
  listingId := none
  versionDigest := none
  image := "app"
  tag := none
  digest := none
  port := none
  resources := none
  envVars := none
  platformEnvVars := none
  secretEnvKeys := none
  appId := none
  subdomain := none
  domain := none
  securityProfile := none

def upgradeBinding : McpUpgradeBinding where
  clusterId := "c"
  nodeId := "n"
  workspaceId := "a"
  deploymentId := "d"
  generationId := "g"
  generationNumber := 1
  runtimeInstallationId := "i"
  mcpAppId := "m"
  replicaId := "00000000-0000-0000-0000-000000000000"
  containerId := "app"
  imageDigest := none
  manifestDigest := none
  approvalReceiptHash := "r"
  authorizationEpoch := 1
  deploymentGrantHash := "h"
  resourceManifestHash := "h"

/-- The labels of a container with this binding. -/
def boundLabels : Labels :=
  [managedLabel, ("privos.id", "app"), ("privos.workspace", "a"), ("privos.mcp.schema", "3"),
    ("privos.mcp.cluster", "c"), ("privos.mcp.node", "n"), ("privos.mcp.deployment", "d"),
    ("privos.mcp.generation", "g"), ("privos.mcp.generation-number", "1"),
    ("privos.mcp.runtime-installation", "i"), ("privos.mcp.app", "m"),
    ("privos.mcp.replica", "00000000-0000-0000-0000-000000000000"),
    ("privos.mcp.resource-manifest-hash", "h"), ("privos.mcp.approval-receipt", "r"),
    ("privos.mcp.authorization-epoch", "1"), ("privos.mcp.deployment-grant-hash", "h"),
    ("privos.mcp.hub-jwk", "null")]

def boundContainer : HostContainer where
  status := .running
  labels := boundLabels

end Sample

end PrivosCluster.AgentHost
