import PrivosCluster.Agent.HostSpec

/-!
# What the broker of an agent does

The cleanup closes the server of a replica whatever becomes of its files.
-/

namespace PrivosCluster.AgentHost

open AsyncProgram Agent

variable {law : HostCall → HostChoice → Prop} {config : HostConfig} {host : Host} {x : HostChoice}
  {replicaId : String}

variable {other : String} {c : HostCall}

theorem mem_legacy_removeDirectory :
    other ∈ (respondHost (.removeDirectory replicaId) x host).2.legacy ↔
      other ∈ host.legacy ∧ ¬ (x.done ∧ other = replicaId) := by
  rw [respondHost_snd]
  by_cases hdone : x.done
  · simp only [hdone, if_true, true_and, serve, AList.mem_erase]
    exact and_comm
  · simp [hdone]

theorem mem_stored_removeStore :
    other ∈ (respondHost (.removeStore replicaId) x host).2.stored ↔
      other ∈ host.stored ∧ ¬ (x.done ∧ other = replicaId) := by
  rw [respondHost_snd]
  by_cases hdone : x.done
  · simp only [hdone, if_true, true_and, serve, AList.mem_erase]
    exact and_comm
  · simp [hdone]

theorem stored_removeDirectory :
    (respondHost (.removeDirectory replicaId) x host).2.stored = host.stored :=
  unchanged Host.stored rfl

theorem legacy_removeStore :
    (respondHost (.removeStore replicaId) x host).2.legacy = host.legacy :=
  unchanged Host.legacy rfl

/-- The host without what the broker keeps on it. -/
def Host.unbrokered (host : Host) : Host :=
  { host with servers := ∅, stored := ∅, legacy := ∅ }

theorem of_unbrokered {host' : Host} (h : host'.unbrokered = host.unbrokered) :
    host'.containers = host.containers ∧ host'.volumes = host.volumes := by
  have hcontainers := congrArg Host.containers h
  have hvolumes := congrArg Host.volumes h
  exact ⟨hcontainers, hvolumes⟩

/-- The calls of a cleanup. -/
inductive CleanupCall (replicaId : String) : HostCall → Prop where
  | close : CleanupCall replicaId (.close replicaId)
  | removeDirectory : CleanupCall replicaId (.removeDirectory replicaId)
  | removeStore : CleanupCall replicaId (.removeStore replicaId)

theorem asks_cleanup : Asks (CleanupCall replicaId) (McpBrokerManager.cleanup config replicaId) := by
  apply Asks.bind (asks_await .close)
  intro _
  apply Asks.bind Asks.ofExcept
  intro _
  apply Asks.bind (asks_await .removeDirectory)
  intro _
  exact Asks.onlyIf (asks_await .removeStore)

theorem unbrokered_cleanup (h : CleanupCall replicaId c) :
    (respondHost c x host).2.unbrokered = host.unbrokered := by
  apply unchanged Host.unbrokered
  cases h <;> rfl

def Host.closed (host : Host) (replicaId : String) : Host :=
  { host with servers := host.servers.erase replicaId }

theorem respond_close (h : (hostMachine law).permits (.close replicaId) x host) :
    (hostMachine law).respond (.close replicaId) x host = (.ok (), host.closed replicaId) ∧
      x.done := by
  have hnone : x.failure = none := h.1.2.1 rfl
  exact ⟨respondHost_of_none hnone, done_of_none hnone⟩

/-- What a cleanup leaves of a replica. -/
structure Cleaned (config : HostConfig) (replicaId : String) (host host' : Host)
    (calls : List (HostCall × HostChoice)) : Prop where
  servers : host'.servers = host.servers.erase replicaId
  closed : Took (.close replicaId) calls
  legacy : replicaId ∈ host'.legacy ↔
    replicaId ∈ host.legacy ∧ ¬ Took (.removeDirectory replicaId) calls
  stored : config.hasStateRoot = true → (replicaId ∈ host'.stored ↔
    replicaId ∈ host.stored ∧ ¬ Took (.removeStore replicaId) calls)

theorem traces_cleaned :
    Traces (hostMachine law) (fun _ host' calls ↦ Cleaned config replicaId host host' calls)
      (McpBrokerManager.cleanup config replicaId) host := by
  intro x hx
  obtain ⟨hserved, hclosed⟩ := respond_close hx
  rw [hserved]
  apply Traces.ofExcept_bind
  · intro e _
    constructor <;> simp [Host.closed, took_cons, not_took_nil, hclosed]
  intro _ _
  apply (traces_await (.removeDirectory replicaId)).bind
  · rintro _ _ _ ⟨y, hy, hanswer, rfl, rfl⟩
    apply Traces.onlyIf
    · intro hroot
      refine ⟨servers_respond (by rfl), ?_, ?_, fun h ↦ absurd h hroot⟩
      · simp [took_cons, hclosed]
      · simp [Host.closed, took_cons, not_took_nil, mem_legacy_removeDirectory]
    · intro hroot
      apply (traces_await (.removeStore replicaId)).imp
      rintro _ _ _ ⟨z, hz, -, rfl, rfl⟩
      refine ⟨(servers_respond (by rfl)).trans (servers_respond (by rfl)), ?_, ?_, fun _ ↦ ?_⟩
      · simp [took_cons, hclosed]
      · rw [legacy_removeStore]
        simp [Host.closed, took_cons, not_took_nil, mem_legacy_removeDirectory]
      · rw [mem_stored_removeStore, stored_removeDirectory]
        simp [Host.closed, took_cons, not_took_nil]
  · rintro e _ _ ⟨y, hy, hanswer, rfl, rfl⟩
    refine ⟨servers_respond (by rfl), ?_, ?_, fun _ ↦ ?_⟩
    · simp [took_cons, hclosed]
    · simp [Host.closed, took_cons, not_took_nil, mem_legacy_removeDirectory]
    · rw [stored_removeDirectory]
      simp [Host.closed, took_cons, not_took_nil]

/-! ## Registration -/

/-- What a registration touches besides the servers. -/
inductive SocketCall : HostCall → Prop where
  | makeDirectory (replicaId : String) : SocketCall (.makeDirectory replicaId)
  | removeSocket (replicaId : String) : SocketCall (.removeSocket replicaId)
  | listen (socketPath : String) : SocketCall (.listen socketPath)
  | chmodSocket (replicaId : String) : SocketCall (.chmodSocket replicaId)

/-- The host without what a registration changes. -/
def Host.unserved (host : Host) : Host := { host with servers := ∅, handles := 0 }

theorem of_unserved {host' : Host} (h : host'.unserved = host.unserved) :
    host'.containers = host.containers ∧ host'.volumes = host.volumes := by
  have hcontainers := congrArg Host.containers h
  have hvolumes := congrArg Host.volumes h
  exact ⟨hcontainers, hvolumes⟩

theorem unserved_respond (h : SocketCall c) :
    (respondHost c x host).2.unserved = host.unserved := by
  apply unchanged Host.unserved
  cases h <;> rfl

/-- The server of a replica after a registration: none at all unless it has succeeded. -/
structure Registered (binding : ReplicaBinding) (host : Host) (r : Except HostError Unit)
    (host' : Host) (calls : List (HostCall × HostChoice)) : Prop where
  rest : host'.unserved = host.unserved
  closed : Took (.close binding.replicaId) calls
  served : match r with
    | .ok _ => ∃ handle,
        host'.servers = (host.servers.erase binding.replicaId).insert binding.replicaId
          ⟨handle, binding⟩ ∧
        Took (.setServer binding.replicaId ⟨handle, binding⟩) calls
    | .error _ => host'.servers = host.servers.erase binding.replicaId ∧
        ∀ replicaId server, ¬ Took (.setServer replicaId server) calls

/-- The registration has not come to the server yet. -/
structure Opening (binding : ReplicaBinding) (host host' : Host)
    (calls : List (HostCall × HostChoice)) : Prop where
  rest : host'.unserved = host.unserved
  closed : Took (.close binding.replicaId) calls
  servers : host'.servers = host.servers.erase binding.replicaId
  unset : ∀ replicaId server, ¬ Took (.setServer replicaId server) calls

section Registration

variable {binding : ReplicaBinding} {host' : Host} {calls : List (HostCall × HostChoice)}

theorem Opening.refused (h : Opening binding host host' calls) (e : HostError) :
    Registered binding host (.error e) host' calls :=
  ⟨h.rest, h.closed, h.servers, h.unset⟩

theorem Opening.step (h : Opening binding host host' calls) (hc : SocketCall c) :
    Opening binding host (respondHost c x host').2 (calls ++ [(c, x)]) := by
  constructor
  · exact (unserved_respond hc).trans h.rest
  · exact took_append.mpr (.inl h.closed)
  · rw [servers_respond (by cases hc <;> rfl), h.servers]
  · intro replicaId server htook
    obtain htook | htook := took_append.mp htook
    · exact h.unset replicaId server htook
    · have hnot : ¬ SocketCall (.setServer replicaId server) := nofun
      apply not_took (P := SocketCall) _ hnot htook
      simpa using hc

theorem traces_opening {f : c.Answer → HostProgram Unit} (hc : SocketCall c)
    (h : Opening binding host host' calls)
    (hf : ∀ a host'' calls', Opening binding host host'' calls' →
      Traces (hostMachine law) (fun r s rest ↦ Registered binding host r s (calls' ++ rest))
        (f a) host'') :
    Traces (hostMachine law) (fun r s rest ↦ Registered binding host r s (calls ++ rest))
      (await c >>= f) host' := by
  apply (traces_await c).bind
  · rintro a _ _ ⟨x, -, -, rfl, rfl⟩
    simpa only [List.append_assoc] using hf a _ _ (h.step hc)
  · rintro e _ _ ⟨x, -, -, rfl, rfl⟩
    exact (h.step hc).refused e

theorem traces_registerSocket : Traces (hostMachine law) (Registered binding host)
    (McpBrokerManager.registerSocket config binding) host := by
  intro x hx
  obtain ⟨hserved, hclosed⟩ := respond_close hx
  rw [hserved]
  have hopening : Opening binding host (host.closed binding.replicaId)
      [(.close binding.replicaId, x)] := by
    refine ⟨rfl, took_cons.mpr (.inl ⟨rfl, hclosed⟩), rfl, ?_⟩
    simp [took_cons, not_took_nil]
  apply Traces.ofExcept_bind
  · exact fun e _ ↦ hopening.refused e
  intro directory _
  apply Traces.ofExcept_bind
  · exact fun e _ ↦ hopening.refused e
  intro socketPath _
  apply traces_opening (.makeDirectory _) hopening
  intro _ _ _ hopening
  apply traces_opening (.removeSocket _) hopening
  intro _ _ _ hopening
  apply traces_opening (.listen _) hopening
  intro handle _ _ hopening
  apply traces_opening (.chmodSocket _) hopening
  intro _ host' calls hopening
  apply (traces_await (.setServer binding.replicaId ⟨handle, binding⟩)).imp
  rintro r _ _ ⟨y, hy, rfl, rfl, rfl⟩
  have hnone : y.failure = none := hy.1.2.1 rfl
  rw [respondHost_of_none hnone]
  refine ⟨hopening.rest, took_append.mpr (.inl hopening.closed), handle, ?_, ?_⟩
  · rw [← hopening.servers]
    rfl
  · exact took_append.mpr (.inr (took_cons.mpr (.inl ⟨rfl, done_of_none hnone⟩)))

/-- The calls of a registration. -/
inductive RegisterCall (replicaId : String) : HostCall → Prop where
  | close : RegisterCall replicaId (.close replicaId)
  | socket {c : HostCall} (h : SocketCall c) : RegisterCall replicaId c
  | setServer (server : Server) : RegisterCall replicaId (.setServer replicaId server)

theorem asks_registerSocket : Asks (RegisterCall binding.replicaId)
    (McpBrokerManager.registerSocket config binding) := by
  apply Asks.bind (asks_await .close)
  intro _
  apply Asks.bind Asks.ofExcept
  intro directory
  apply Asks.bind Asks.ofExcept
  intro socketPath
  apply Asks.bind (asks_await (.socket (.makeDirectory _)))
  intro _
  apply Asks.bind (asks_await (.socket (.removeSocket _)))
  intro _
  apply Asks.bind (asks_await (.socket (.listen _)))
  intro handle
  apply Asks.bind (asks_await (.socket (.chmodSocket _)))
  intro _
  exact asks_await (.setServer _)

theorem moves_of_register {replicaId : String} (h : RegisterCall replicaId c) :
    c.movesContainers = false ∧ c.movesVolumes = false := by
  cases h with
  | close => exact ⟨rfl, rfl⟩
  | socket h => cases h <;> exact ⟨rfl, rfl⟩
  | setServer server => exact ⟨rfl, rfl⟩

end Registration

end PrivosCluster.AgentHost
