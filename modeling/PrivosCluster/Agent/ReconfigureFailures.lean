import PrivosCluster.Agent.BrokerSpec
import PrivosCluster.Agent.LifecycleSpec

/-!
# Reconfigurations that fail

A reconfiguration takes the container and its registration down before it builds them anew. In
between, a failure leaves the replica without a server, and often without a container.
-/

namespace PrivosCluster.AgentHost

open AsyncProgram Agent Routing LifecycleService List McpBrokerManager

variable {law : HostCall → HostChoice → Prop} {config : HostConfig} {platform : HostPlatform}
  {host host' : Host} {req : ReconfigureRequest} {calls : List (HostCall × HostChoice)}

/-- A container with the id of the request is there, and the broker serves it under the inventory
of its generation. -/
def Finalized (req : ReconfigureRequest) (host : Host) : Prop :=
  ∃ dockerId, host.Carries [("privos.id", req.mcpV3Binding.containerId)] dockerId ∧
    ∃ server ∈ host.servers.lookup req.mcpV3Binding.replicaId, ∃ binding networkName,
      server.binding = .v3 binding dockerId networkName ∧
      binding.runtimeResourceInventoryHash = some req.runtimeResourceInventoryHash

/-- The failure came before the registration was closed, or after it was made anew. -/
def SparedOrRestored (req : ReconfigureRequest) (host : Host)
    (calls : List (HostCall × HostChoice)) : Prop :=
  (¬ Took (.close req.mcpV3Binding.replicaId) calls ∧ Finalized req host) ∨
    ∃ server, Took (.setServer req.mcpV3Binding.replicaId server) calls

/-! ## Before, in between, and afterwards -/

/-- Containers and servers are as they were. -/
structure Untouched (host host' : Host) (calls : List (HostCall × HostChoice)) : Prop where
  containers : host'.containers = host.containers
  servers : host'.servers = host.servers
  asked : ∀ event ∈ calls, event.1.movesServers = false

/-- The replica has no server. -/
structure Unserved (replicaId : String) (host' : Host) (calls : List (HostCall × HostChoice)) :
    Prop where
  servers : host'.servers.lookup replicaId = none
  closed : Took (.close replicaId) calls
  unset : ∀ server, ¬ Took (.setServer replicaId server) calls

/-- The new container is served. -/
structure Restored (req : ReconfigureRequest) (host' : Host)
    (calls : List (HostCall × HostChoice)) : Prop where
  finalized : Finalized req host'
  set : ∃ server, Took (.setServer req.mcpV3Binding.replicaId server) calls

theorem Untouched.finalized_iff (h : Untouched host host' calls) :
    Finalized req host' ↔ SparedOrRestored req host calls := by
  have hnot : ∀ {c : HostCall}, c.movesServers → ¬ Took c calls :=
    fun hc ↦ not_took (P := fun c ↦ c.movesServers = false) h.asked (by simp [hc])
  have hsame : Finalized req host' ↔ Finalized req host := by
    unfold Finalized
    simp only [carries_congr h.containers, h.servers]
  rw [hsame]
  constructor
  · exact fun hfinalized ↦ .inl ⟨hnot rfl, hfinalized⟩
  · rintro (⟨-, hfinalized⟩ | ⟨server, hset⟩)
    · exact hfinalized
    · exact absurd hset (hnot rfl)

theorem Unserved.finalized_iff (h : Unserved req.mcpV3Binding.replicaId host' calls) :
    Finalized req host' ↔ SparedOrRestored req host calls := by
  constructor
  · rintro ⟨dockerId, -, server, hserver, -⟩
    rw [h.servers] at hserver
    cases hserver
  · rintro (⟨hopen, -⟩ | ⟨server, hset⟩)
    · exact absurd h.closed hopen
    · exact absurd hset (h.unset server)

theorem Restored.finalized_iff (h : Restored req host' calls) :
    Finalized req host' ↔ SparedOrRestored req host calls :=
  iff_of_true h.finalized (.inr h.set)

variable {replicaId dockerId : String} {e : HostError} {existing : DockerState.Found}

section Phases

variable {α : Type} {p : HostProgram α} {host₁ : Host}

theorem traces_untouched (hp : Idle p) (h : Untouched host host₁ calls) :
    Traces (hostMachine law) (fun _ host' calls' ↦ Untouched host host' (calls ++ calls')) p
      host₁ := by
  have hkept : Traces (hostMachine law) (fun _ host' calls' ↦
      (host'.containers, host'.servers) = (host₁.containers, host₁.servers) ∧
        ∀ event ∈ calls', event.1.idle) p host₁ :=
    traces_keeping (fun host ↦ (host.containers, host.servers)) hp fun c x host hc ↦
      Prod.ext (containers_respond (moves_of_idle hc).1) (servers_respond (moves_of_idle hc).2.2.2)
  apply hkept.imp
  rintro r host' calls' ⟨hsame, hcalls⟩
  obtain ⟨hcontainers, hservers⟩ := Prod.mk.inj hsame
  refine ⟨hcontainers.trans h.containers, hservers.trans h.servers, ?_⟩
  intro event hevent
  obtain hevent | hevent := mem_append.mp hevent
  · exact h.asked event hevent
  · exact (moves_of_idle (hcalls event hevent)).2.2.2

theorem Unserved.append {calls' : List (HostCall × HostChoice)} (h : Unserved replicaId host₁ calls)
    (hservers : host'.servers = host₁.servers)
    (hcalls : ∀ event ∈ calls', event.1.movesServers = false) :
    Unserved replicaId host' (calls ++ calls') := by
  refine ⟨hservers ▸ h.servers, took_append.mpr (.inl h.closed), ?_⟩
  intro server htook
  obtain htook | htook := took_append.mp htook
  · exact h.unset server htook
  · apply not_took (P := fun c ↦ c.movesServers = false) hcalls _ htook
    simp [HostCall.movesServers]

theorem traces_unserved (hp : Asks (fun c : HostCall ↦ c.movesServers = false) p)
    (h : Unserved replicaId host₁ calls) :
    Traces (hostMachine law) (fun _ host' calls' ↦ Unserved replicaId host' (calls ++ calls')) p
      host₁ := by
  apply (traces_keeping Host.servers hp fun _ _ _ hc ↦ servers_respond hc).imp
  rintro r host' calls' ⟨hservers, hcalls⟩
  exact h.append hservers hcalls

/-- A restored replica is not disturbed by what follows. -/
theorem traces_restored
    (hp : Asks (fun c : HostCall ↦ c.idle ∨ ∃ dockerId, c = .start dockerId) p)
    (h : Restored req host₁ calls) :
    Traces (hostMachine law) (fun _ host' calls' ↦ Restored req host' (calls ++ calls')) p
      host₁ := by
  have hkept : Traces (hostMachine law) (fun _ host' calls' ↦
      (host'.fixedOf, host'.servers) = (host₁.fixedOf, host₁.servers) ∧
        ∀ event ∈ calls', event.1.idle ∨ ∃ dockerId, event.1 = .start dockerId) p host₁ :=
    traces_keeping (fun host ↦ (host.fixedOf, host.servers)) hp fun c x host hc ↦ by
      obtain hc | ⟨dockerId, rfl⟩ := hc
      · have hcontainers : (respondHost c x host).2.containers = host.containers :=
          containers_respond (moves_of_idle hc).1
        apply Prod.ext _ (servers_respond (moves_of_idle hc).2.2.2)
        funext id
        simp only [Host.fixedOf, hcontainers]
      · apply Prod.ext _ (servers_respond (by rfl))
        funext id
        exact fixedOf_start
  apply hkept.imp
  rintro r host' calls' ⟨hsame, -⟩
  obtain ⟨hfixed, hservers⟩ := Prod.mk.inj hsame
  obtain ⟨server, hset⟩ := h.set
  refine ⟨?_, server, took_append.mpr (.inl hset)⟩
  have hfinalized := h.finalized
  unfold Finalized Host.Carries at hfinalized ⊢
  rwa [hfixed, hservers]

end Phases

/-- A failure is accounted for by where it came. -/
def Accounted (req : ReconfigureRequest) (host : Host) (r : Except HostError DockerState.Found)
    (host' : Host) (calls : List (HostCall × HostChoice)) : Prop :=
  ∀ e, r = .error e → (Finalized req host' ↔ SparedOrRestored req host calls)

theorem Untouched.accounted (h : Untouched host host' calls) :
    Accounted req host (.error e) host' calls :=
  fun _ _ ↦ h.finalized_iff

theorem Unserved.accounted (h : Unserved req.mcpV3Binding.replicaId host' calls) :
    Accounted req host (.error e) host' calls :=
  fun _ _ ↦ h.finalized_iff

/-! ## The steps -/

section Steps

variable {host₁ : Host}

variable {binding : McpRuntimeBindingV3}

theorem binding_of_reconfigured {labels : Labels}
    (h : reconfiguredBinding platform req labels = .ok binding) :
    binding.toMcpUpgradeBinding = req.mcpV3Binding := by
  unfold reconfiguredBinding at h
  split at h
  · split at h
    · obtain rfl := Except.ok.inj h
      rfl
    · cases h
  · cases h

theorem traces_replaceContainer {mounts : List VolumeMount}
    (hbinding : binding.toMcpUpgradeBinding = req.mcpV3Binding)
    (h : Unserved req.mcpV3Binding.replicaId host₁ calls) :
    Traces (hostMachine law) (fun r host' calls' ↦
      Unserved req.mcpV3Binding.replicaId host' (calls ++ calls') ∧ ∀ dockerId, r = .ok dockerId →
        host'.Carries [("privos.id", req.mcpV3Binding.containerId)] dockerId)
      (replaceContainer config platform req existing binding mounts) host₁ := by
  have hasks : Asks (fun c : HostCall ↦ c.movesServers = false)
      (replaceContainer config platform req existing binding mounts) := by
    apply Asks.bind (asks_stopContainer (by rfl))
    intro _
    apply Asks.bind (asks_removeContainer (by rfl))
    intro _
    apply Asks.bind (blind_prepare.idle.imp fun c hc ↦ (moves_of_idle hc).2.2.2)
    intro _
    apply Asks.bind (asks_await (by rfl))
    intro _
    exact asks_createAppContainer (fun _ ↦ rfl) fun _ ↦ rfl
  apply (traces_unserved hasks h).and
  -- Only the container that is created last matters.
  have hlast : ∀ {α : Type} {p : HostProgram α} {f : α → HostProgram String} {host : Host},
      (∀ a host, Traces (hostMachine law) (fun r host' _ ↦ ∀ dockerId, r = .ok dockerId →
        host'.Carries [("privos.id", req.mcpV3Binding.containerId)] dockerId) (f a) host) →
      Traces (hostMachine law) (fun r host' _ ↦ ∀ dockerId, r = .ok dockerId →
        host'.Carries [("privos.id", req.mcpV3Binding.containerId)] dockerId) (p >>= f) host := by
    intro α p f host hf
    apply ((Asks.any p).traces host).bind
    · exact fun a host' _ _ ↦ hf a host'
    · exact fun _ _ _ _ _ h ↦ nomatch h
  apply hlast
  intro _ _
  apply hlast
  intro _ _
  apply hlast
  intro _ _
  apply hlast
  intro _ _
  apply traces_createAppContainer.imp
  intro r host' _ hcreation dockerId hr
  cases hcreation with
  | refused e => cases hr
  | failed request x e hx hfresh => cases hr
  | lost request x y e hx hy hfresh => cases hr
  | created request x y hx hy hfresh hrequest =>
    obtain rfl := Except.ok.inj hr
    have hid := (marks_of_containerRequest hrequest).1
    refine ⟨_, fixedOf_put.trans (if_pos rfl), ?_⟩
    rintro label hlabel
    obtain rfl := mem_singleton.mp hlabel
    rw [← hbinding]
    exact hid

theorem traces_register {finalized : McpRuntimeBindingV3} {networkName : String}
    (hreplica : finalized.replicaId = req.mcpV3Binding.replicaId)
    (hhash : finalized.runtimeResourceInventoryHash = some req.runtimeResourceInventoryHash)
    (h : Unserved req.mcpV3Binding.replicaId host₁ calls)
    (hcarries : host₁.Carries [("privos.id", req.mcpV3Binding.containerId)] dockerId) :
    Traces (hostMachine law) (fun r host' calls' ↦
      match r with
      | .ok _ => Restored req host' (calls ++ calls')
      | .error _ => Unserved req.mcpV3Binding.replicaId host' (calls ++ calls'))
      (McpBrokerManager.register config platform (.v3 finalized dockerId networkName)) host₁ := by
  have hpersist : Idle (persistFinalizedV3 config platform finalized networkName) :=
    blind_persistFinalizedV3.idle
  have hstill : Traces (hostMachine law) (fun _ host' calls' ↦
      Unserved req.mcpV3Binding.replicaId host' (calls ++ calls'))
      (persistFinalizedV3 config platform finalized networkName) host₁ :=
    traces_unserved (hpersist.imp fun c hc ↦ (moves_of_idle hc).2.2.2) h
  have hkept := hstill.and (traces_keeping Host.containers hpersist fun _ _ _ hc ↦
    containers_respond (moves_of_idle hc).1)
  apply hkept.bind
  · rintro _ host₂ calls₂ ⟨hunserved, hcontainers, -⟩
    apply traces_registerSocket.imp
    intro r host₃ calls₃ hregistered
    have hid : (ReplicaBinding.v3 finalized dockerId networkName).replicaId =
        req.mcpV3Binding.replicaId := hreplica
    have hclosed : Took (.close req.mcpV3Binding.replicaId) (calls ++ (calls₂ ++ calls₃)) := by
      rw [← append_assoc]
      exact took_append.mpr (.inl hunserved.closed)
    have hserved := hregistered.served
    rw [hid] at hserved
    cases r with
    | ok _ =>
      obtain ⟨handle, hservers, hset⟩ := hserved
      refine ⟨⟨dockerId, ?_, ⟨handle, .v3 finalized dockerId networkName⟩, ?_, finalized,
        networkName, rfl, hhash⟩, ⟨handle, .v3 finalized dockerId networkName⟩, ?_⟩
      · have hsame : host₃.containers = host₁.containers :=
          (of_unserved hregistered.rest).1.trans hcontainers
        exact (carries_congr hsame).mpr hcarries
      · rw [hservers]
        exact AList.lookup_insert _
      · rw [← append_assoc]
        exact took_append.mpr (.inr hset)
    | error e =>
      obtain ⟨hservers, hunset⟩ := hserved
      refine ⟨?_, hclosed, ?_⟩
      · rw [hservers]
        exact AList.lookup_erase _ _
      · intro server
        rw [← append_assoc, took_append]
        exact fun htook ↦ htook.elim (hunserved.unset server) (hunset _ server)
  · exact fun e host₂ calls₂ ⟨hunserved, _⟩ ↦ hunserved

theorem traces_reRegister (hbinding : binding.toMcpUpgradeBinding = req.mcpV3Binding)
    (h : Unserved req.mcpV3Binding.replicaId host₁ calls)
    (hcarries : host₁.Carries [("privos.id", req.mcpV3Binding.containerId)] dockerId) :
    Traces (hostMachine law) (fun r host' calls' ↦
      match r with
      | .ok _ => Restored req host' (calls ++ calls')
      | .error _ => Unserved req.mcpV3Binding.replicaId host' (calls ++ calls'))
      (reRegister config platform req binding dockerId) host₁ := by
  apply Traces.ofExcept_bind
  · intro e _
    rwa [append_nil]
  intro networkName _
  have hreplica : binding.replicaId = req.mcpV3Binding.replicaId :=
    congrArg McpUpgradeBinding.replicaId hbinding
  exact traces_register hreplica rfl h hcarries

/-- What comes before the registration is closed. -/
theorem traces_before {α : Type} {p : HostProgram α} {f : α → HostProgram DockerState.Found}
    (hp : Idle p) (h : Untouched host host₁ calls)
    (hf : ∀ a host₂ calls₂, Untouched host host₂ calls₂ →
      Traces (hostMachine law) (fun r host' rest ↦ Accounted req host r host' (calls₂ ++ rest))
        (f a) host₂) :
    Traces (hostMachine law) (fun r host' rest ↦ Accounted req host r host' (calls ++ rest))
      (p >>= f) host₁ := by
  apply (traces_untouched hp h).bind_after (R := fun _ ↦ Untouched host)
  · exact hf
  · exact fun e host₂ calls₂ h ↦ h.accounted

theorem traces_teardown (h : Untouched host host₁ calls) :
    Traces (hostMachine law) (fun _ host' calls' ↦ Unserved replicaId host' (calls ++ calls'))
      (cleanup config replicaId) host₁ := by
  apply (traces_cleaned.and (asks_cleanup.traces host₁)).imp
  rintro r host' calls' ⟨hcleaned, hcalls⟩
  refine ⟨?_, took_append.mpr (.inr hcleaned.closed), ?_⟩
  · rw [hcleaned.servers]
    exact AList.lookup_erase _ _
  · intro server htook
    obtain htook | htook := took_append.mp htook
    · apply not_took (P := fun c ↦ c.movesServers = false) h.asked _ htook
      simp [HostCall.movesServers]
    · have hnot : ¬ CleanupCall replicaId (.setServer replicaId server) := by
        intro h
        cases h
      exact not_took hcalls hnot htook

theorem traces_startReconfigured {id : String} {port : Int} (h : Restored req host₁ calls) :
    Traces (hostMachine law) (fun r host' rest ↦ Accounted req host r host' (calls ++ rest))
      (startReconfigured config req id dockerId port) host₁ := by
  have hasks : Asks (fun c : HostCall ↦ c.idle = true ∨ ∃ dockerId, c = .start dockerId)
      (startReconfigured config req id dockerId port) := by
    apply Asks.bind (asks_startContainer (.inr ⟨dockerId, rfl⟩))
    intro _
    apply Asks.bind (idle_getInternalUrl.imp fun c hc ↦ .inl hc)
    intro internalUrl
    apply Asks.bind (asks_await (.inl rfl))
    intro _
    apply Asks.bind (blind_getById.idle.imp fun c hc ↦ .inl hc)
    intro found
    cases found with
    | some found => exact Asks.pure
    | none => trivial
  apply (traces_restored hasks h).imp
  exact fun r host' rest h e _ ↦ h.finalized_iff

theorem traces_rebuild (hbinding : binding.toMcpUpgradeBinding = req.mcpV3Binding)
    (h : Untouched host host₁ calls) :
    Traces (hostMachine law) (fun r host' calls' ↦ Accounted req host r host' (calls ++ calls'))
      (rebuild config platform req existing binding) host₁ := by
  have hreplica : binding.replicaId = req.mcpV3Binding.replicaId :=
    congrArg McpUpgradeBinding.replicaId hbinding
  apply traces_before idle_getExistingMounts h
  intro mounts host₂ calls₂ h
  apply traces_before blind_pullImage.idle h
  intro _ host₃ calls₃ h
  rw [hreplica]
  apply (traces_teardown h).bind_after (R := fun _ ↦ Unserved req.mcpV3Binding.replicaId)
  · intro _ host₄ calls₄ h
    apply (traces_replaceContainer hbinding h).bind_after (R := fun r host' calls ↦
      Unserved req.mcpV3Binding.replicaId host' calls ∧ ∀ dockerId, r = .ok dockerId →
        host'.Carries [("privos.id", req.mcpV3Binding.containerId)] dockerId)
    · rintro dockerId host₅ calls₅ ⟨h, hcarries⟩
      apply (traces_reRegister hbinding h (hcarries dockerId rfl)).bind_after (R := fun r host' calls ↦
        match r with
        | .ok _ => Restored req host' calls
        | .error _ => Unserved req.mcpV3Binding.replicaId host' calls)
      · intro _ host₆ calls₆ h
        exact traces_startReconfigured h
      · exact fun e host₆ calls₆ h ↦ Unserved.accounted h
    · exact fun e host₅ calls₅ h ↦ h.1.accounted
  · exact fun e host₄ calls₄ h ↦ h.accounted

theorem traces_reconfigure : Traces (hostMachine law) (Accounted req host)
    (reconfigureManagedAppV3 config platform req) host := by
  have h : Untouched host host [] := ⟨rfl, rfl, fun _ h ↦ absurd h not_mem_nil⟩
  apply traces_before blind_getContainerOr404.idle h
  intro existing host₁ calls₁ h
  apply traces_before (asks_await (by rfl)) h
  intro inspect host₂ calls₂ h
  apply Traces.ofExcept_bind
  · intro e _
    rw [append_nil]
    exact h.accounted
  · intro binding hbinding
    exact traces_rebuild (binding_of_reconfigured hbinding) h

end Steps

/-- After a failed reconfiguration the replica is served as it should be if the failure came before
the registration was closed, or after it was made anew. -/
theorem finalized_iff_sparedOrRestored {e : HostError}
    (run : Executes (hostMachine law).traced (reconfigureManagedAppV3 config platform req) (host, [])
      (.threw e) (host', calls)) :
    Finalized req host' ↔ SparedOrRestored req host calls :=
  Traces.post (r := .error e) traces_reconfigure run e rfl

/-! ## A full disk -/

namespace Sample

def reconfiguration : ReconfigureRequest where
  toAppRequest := appRequest
  mcpV3Binding := upgradeBinding
  runtimeResourceInventoryHash := "hash"

def finalizedBinding : McpRuntimeBindingV3 where
  toMcpUpgradeBinding := { upgradeBinding with runtimeResourceInventoryHash := some "hash" }
  hubOrigin := none
  hubKid := none
  hubPublicJwk := .null

/-- The container runs, and the broker serves it. -/
def servedHost : Host :=
  { emptyHost.put "old" boundContainer with
    servers := AList.singleton upgradeBinding.replicaId ⟨0, .v3 finalizedBinding "old" "net"⟩ }

/-- Only new directories cannot be made. -/
def fullDisk (c : HostCall) (host : Host) : HostChoice :=
  match c with
  | .makeDirectory _ =>
    { obliging host with failure := some { message := "no space left on device" } }
  | _ => obliging host

theorem fullDisk_lawful (c : HostCall) (host : Host) : freely.permits c (fullDisk c host) host := by
  cases c
  case makeDirectory => exact ⟨⟨rfl, nofun, trivial⟩, trivial⟩
  all_goals exact lawful _ host

def failedReconfiguration :
    Except HostError DockerState.Found × Host × List (HostCall × HostChoice) :=
  freely.traced.run (fun c s ↦ fullDisk c s.1)
    (reconfigureManagedAppV3 Sample.config Sample.platform reconfiguration) (servedHost, [])

theorem reconfiguration_fails : ∃ e, Executes freely.traced
    (reconfigureManagedAppV3 Sample.config Sample.platform reconfiguration) (servedHost, [])
    (.threw e) (failedReconfiguration.2.1, failedReconfiguration.2.2) :=
  ⟨{ message := "no space left on device" },
    freely.traced.executes_run (fun c s ↦ fullDisk c s.1) (fun c s ↦ fullDisk_lawful c s.1) _ _⟩

end Sample

theorem finalized_iff_sparedOrRestored_fullDisk :
    Finalized Sample.reconfiguration Sample.failedReconfiguration.2.1 ↔
      SparedOrRestored Sample.reconfiguration Sample.servedHost Sample.failedReconfiguration.2.2 :=
  finalized_iff_sparedOrRestored Sample.reconfiguration_fails.choose_spec

/-- The request finds the replica as it should be, and leaves neither container nor server. -/
theorem fullDisk_unserved : Finalized Sample.reconfiguration Sample.servedHost ∧ ∃ e host',
    Executes Sample.freely
      (reconfigureManagedAppV3 Sample.config Sample.platform Sample.reconfiguration)
      Sample.servedHost (.threw e) host' ∧
      host'.containers = ∅ ∧ ¬ Finalized Sample.reconfiguration host' := by
  have hbefore : Finalized Sample.reconfiguration Sample.servedHost :=
    ⟨"old", ⟨_, rfl, by decide⟩, ⟨0, .v3 Sample.finalizedBinding "old" "net"⟩, rfl, _, _, rfl, rfl⟩
  refine ⟨hbefore, _, _, Sample.freely.executes_run Sample.fullDisk Sample.fullDisk_lawful _ _,
    rfl, ?_⟩
  rintro ⟨dockerId, -, server, hserver, -⟩
  cases hserver

end PrivosCluster.AgentHost
