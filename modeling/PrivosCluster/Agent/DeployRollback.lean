import PrivosCluster.Agent.BrokerSpec
import PrivosCluster.Agent.LifecycleSpec

/-!
# What is left of a failed deployment

A deployment that fails removes the volumes that it ensured, whether it made them or found them. A
container whose id did not come back is not removed, and a registration that was restored for a
container of an earlier attempt is not undone.
-/

namespace PrivosCluster.AgentHost

open AsyncProgram Agent Routing LifecycleService List HostCall McpBrokerManager Option

/-- The calls by which an attempt is undone. -/
def HostCall.isCleanup : HostCall → Bool
  | .stop _ => true
  | .remove _ _ => true
  | .removeVolume _ => true
  | .close _ => true
  | .removeDirectory _ => true
  | .removeStore _ => true
  | _ => false

/-- Cleanup calls succeed. -/
def Cleans (c : HostCall) (x : HostChoice) : Prop := c.isCleanup = true → x.failure = none

variable {config : HostConfig} {platform : HostPlatform} {host host' : Host} {req : DeployRequest}
  {calls calls' : List (HostCall × HostChoice)}

/-- The volumes from before are there, and nothing that the call has created is. -/
structure RolledBack (host host' : Host) (calls : List (HostCall × HostChoice)) : Prop where
  volumes : ∀ name ∈ host.volumes, name ∈ host'.volumes
  containers : ∀ request x, (.createContainer request, x) ∈ calls → x.done = true →
    x.dockerId ∉ host'.containers
  servers : ∀ replicaId server, Took (.setServer replicaId server) calls →
    host'.servers.lookup replicaId ≠ some server

/-- No ensured volume was there before and free, every container that was created has told its id,
and the registration was made for a new container. -/
structure Revertible (host : Host) (calls : List (HostCall × HostChoice)) : Prop where
  volumes : ∀ name labels x, (.createVolume name labels, x) ∈ calls → x.failure = none →
    name ∈ host.volumes → host.mounted name = true
  known : ∀ request x, (.createContainer request, x) ∈ calls → x.done = true →
    x.failure = none ∧ ∃ y, (.inspect x.dockerId, y) ∈ calls ∧ y.failure = none
  own : ∀ replicaId server, Took (.setServer replicaId server) calls →
    ∃ request x, (.createContainer request, x) ∈ calls

def Judged (host : Host) (r : Except HostError DockerState.Found) (host' : Host)
    (calls : List (HostCall × HostChoice)) : Prop :=
  ∀ e, r = .error e → (RolledBack host host' calls ↔ Revertible host calls)

/-- A program after these calls. -/
abbrev Judges (law : HostCall → HostChoice → Prop) (host : Host)
    (calls : List (HostCall × HostChoice)) (p : HostProgram DockerState.Found) (host₁ : Host) :
    Prop :=
  Traces (hostMachine law) (fun r host' rest ↦ Judged host r host' (calls ++ rest)) p host₁

theorem judged_ok {found : DockerState.Found} : Judged host (.ok found) host' calls :=
  nofun

/-! ## Before anything is created -/

/-- The call touches neither containers nor volumes nor servers, and inspects no container. -/
def HostCall.apart : HostCall → Bool
  | .inspect _ => false
  | c => !(c.movesContainers || c.movesVolumes || c.movesServers)

variable {c : HostCall} {r : Except HostError DockerState.Found} {e : HostError}
  {binding : McpRuntimeBindingV3} {existing : DockerState.Found} {request : ContainerRequest}
  {baseDomain brokerMount : Option String}

theorem moves_of_apart (h : c.apart) :
    c.movesContainers = false ∧ c.movesVolumes = false ∧ c.movesServers = false := by
  cases c <;> first | exact ⟨rfl, rfl, rfl⟩ | cases h

theorem Blind.apart {α : Type} {p : HostProgram α} (h : Blind p) :
    Asks (fun c : HostCall ↦ c.apart) p := by
  apply h.imp
  intro c hc
  cases c <;> first | rfl | cases hc

structure Spared (host host' : Host) (calls : List (HostCall × HostChoice)) : Prop where
  containers : host'.containers = host.containers
  volumes : host'.volumes = host.volumes
  asked : ∀ event ∈ calls, event.1.apart = true

theorem Spared.judged (h : Spared host host' calls) : Judged host r host' calls := by
  have hnot : ∀ {c : HostCall} {x : HostChoice}, c.apart = false → (c, x) ∉ calls := by
    intro c x hc hx
    rw [h.asked _ hx] at hc
    cases hc
  intro e _
  apply iff_of_true
  · constructor
    · rw [h.volumes]
      exact fun _ hname ↦ hname
    · exact fun request x hx ↦ absurd hx (hnot rfl)
    · exact fun replicaId server ⟨x, hx, _⟩ ↦ absurd hx (hnot rfl)
  · constructor
    · exact fun name labels x hx ↦ absurd hx (hnot rfl)
    · exact fun request x hx ↦ absurd hx (hnot rfl)
    · exact fun replicaId server ⟨x, hx, _⟩ ↦ absurd hx (hnot rfl)

theorem traces_spared {α : Type} {p : HostProgram α} {host₁ : Host}
    {law : HostCall → HostChoice → Prop} (hp : Asks (fun c : HostCall ↦ c.apart) p)
    (h : Spared host host₁ calls) :
    Traces (hostMachine law) (fun _ host' calls' ↦ Spared host host' (calls ++ calls')) p host₁ := by
  have hkept : Traces (hostMachine law) (fun _ host' calls' ↦
      (host'.containers, host'.volumes) = (host₁.containers, host₁.volumes) ∧
        ∀ event ∈ calls', event.1.apart) p host₁ :=
    traces_keeping (fun host ↦ (host.containers, host.volumes)) hp fun c x host hc ↦
      Prod.ext (containers_respond (moves_of_apart hc).1) (volumes_respond (moves_of_apart hc).2.1)
  apply hkept.imp
  rintro r host' calls' ⟨hsame, hcalls⟩
  obtain ⟨hcontainers, hvolumes⟩ := Prod.mk.inj hsame
  exact ⟨hcontainers.trans h.containers, hvolumes.trans h.volumes,
    forall_mem_append.mpr ⟨h.asked, hcalls⟩⟩

theorem traces_sparing {α : Type} {p : HostProgram α} {f : α → HostProgram DockerState.Found}
    {host₁ : Host} {law : HostCall → HostChoice → Prop}
    (hp : Asks (fun c : HostCall ↦ c.apart) p) (h : Spared host host₁ calls)
    (hf : ∀ a host₂ calls₂, Spared host host₂ calls₂ →
      Judges law host calls₂ (f a) host₂) :
    Judges law host calls (p >>= f) host₁ := by
  apply (traces_spared hp h).bind_after (R := fun _ ↦ Spared host)
  · exact hf
  · exact fun e host₂ calls₂ h ↦ h.judged

/-- Nothing is created, and no server is entered. -/
structure Calm (host host' : Host) (calls : List (HostCall × HostChoice)) : Prop where
  containers : host'.containers = host.containers
  volumes : host'.volumes = host.volumes
  asked : ∀ event ∈ calls, event.1.movesContainers = false ∧ event.1.movesVolumes = false
  unset : ∀ replicaId server, ¬ Took (.setServer replicaId server) calls

theorem Calm.judged (h : Calm host host' calls) : Judged host r host' calls := by
  have hcreate : ∀ {request : ContainerRequest} {x : HostChoice},
      (HostCall.createContainer request, x) ∉ calls := by
    intro request x hx
    cases (h.asked _ hx).1
  have hvolume : ∀ {name : String} {labels : Labels} {x : HostChoice},
      (createVolume name labels, x) ∉ calls := by
    intro name labels x hx
    cases (h.asked _ hx).2
  intro _ _
  apply iff_of_true
  · constructor
    · rw [h.volumes]
      exact fun _ hname ↦ hname
    · exact fun request x hx ↦ absurd hx hcreate
    · exact fun replicaId server hset ↦ absurd hset (h.unset replicaId server)
  · constructor
    · exact fun name labels x hx ↦ absurd hx hvolume
    · exact fun request x hx ↦ absurd hx hcreate
    · exact fun replicaId server hset ↦ absurd hset (h.unset replicaId server)

theorem Spared.calm (h : Spared host host' calls) : Calm host host' calls := by
  refine ⟨h.containers, h.volumes, ?_, ?_⟩
  · intro event hevent
    have hmoves := moves_of_apart (h.asked event hevent)
    exact ⟨hmoves.1, hmoves.2.1⟩
  · intro replicaId server
    exact not_took (P := fun c ↦ c.apart) h.asked nofun

theorem Calm.inspected {x : HostChoice} {dockerId : String} {host₁ : Host}
    (h : Calm host host₁ calls) :
    Calm host (respondHost (.inspect dockerId) x host₁).2 (calls ++ [(.inspect dockerId, x)]) := by
  refine ⟨(containers_respond (by rfl)).trans h.containers,
    (volumes_respond (by rfl)).trans h.volumes, ?_, ?_⟩
  · exact forall_mem_append.mpr ⟨h.asked, forall_mem_singleton.mpr ⟨rfl, rfl⟩⟩
  · intro replicaId server
    rw [took_append, took_cons]
    simp [h.unset, not_took_nil]

/-! ## Taking a container over -/

section Resume

variable {law : HostCall → HostChoice → Prop} {α : Type} {host₁ : Host}

/-- A server was entered and is there, or none was entered. -/
structure Attached (host : Host) (r : Except HostError Unit) (host' : Host)
    (calls : List (HostCall × HostChoice)) : Prop where
  containers : host'.containers = host.containers
  volumes : host'.volumes = host.volumes
  asked : ∀ event ∈ calls, event.1.movesContainers = false ∧ event.1.movesVolumes = false
  served : match r with
    | .ok _ => ∃ replicaId server, Took (.setServer replicaId server) calls ∧
        host'.servers.lookup replicaId = some server
    | .error _ => ∀ replicaId server, ¬ Took (.setServer replicaId server) calls

/-- A program that ends with a registration, if it succeeds. -/
def Attaches (law : HostCall → HostChoice → Prop) (p : HostProgram Unit) : Prop :=
  ∀ host, Traces (hostMachine law) (Attached host) p host

theorem Attached.refused (e : HostError) : Attached host (.error e) host [] := by
  constructor
  · rfl
  · rfl
  · simp
  · exact fun replicaId server ↦ not_took_nil

theorem attaches_throw : Attaches law (.throw e) :=
  fun _ ↦ Attached.refused e

theorem attaches_registerSocket {binding : ReplicaBinding} :
    Attaches law (registerSocket config binding) := by
  intro host
  apply (traces_registerSocket.and (asks_registerSocket.traces host)).imp
  rintro r host' calls ⟨hregistered, hcalls⟩
  obtain ⟨hcontainers, hvolumes⟩ := of_unserved hregistered.rest
  refine ⟨hcontainers, hvolumes, fun event hevent ↦ moves_of_register (hcalls event hevent), ?_⟩
  have hserved := hregistered.served
  cases r with
  | ok _ =>
    obtain ⟨handle, hservers, hset⟩ := hserved
    refine ⟨_, _, hset, ?_⟩
    rw [hservers]
    exact AList.lookup_insert _
  | error e => exact hserved.2

/-- The calls of a program come after others that enter no server. -/
theorem Attached.after {r : Except HostError Unit} (h : Attached host₁ r host' calls')
    (hcontainers : host₁.containers = host.containers) (hvolumes : host₁.volumes = host.volumes)
    (hasked : ∀ event ∈ calls, event.1.movesContainers = false ∧ event.1.movesVolumes = false)
    (hunset : ∀ replicaId server, ¬ Took (.setServer replicaId server) calls) :
    Attached host r host' (calls ++ calls') := by
  refine ⟨h.containers.trans hcontainers, h.volumes.trans hvolumes, ?_, ?_⟩
  · exact forall_mem_append.mpr ⟨hasked, h.asked⟩
  · have hserved := h.served
    cases r with
    | ok _ =>
      obtain ⟨replicaId, server, hset, hlookup⟩ := hserved
      exact ⟨replicaId, server, took_append.mpr (.inr hset), hlookup⟩
    | error e =>
      intro replicaId server htook
      exact (took_append.mp htook).elim (hunset replicaId server) (hserved replicaId server)

theorem attaches_bind {p : HostProgram α} {f : α → HostProgram Unit} (hp : Blind p)
    (hf : ∀ a, Attaches law (f a)) : Attaches law (p >>= f) := by
  intro host
  have hspared : Spared host host [] := ⟨rfl, rfl, fun _ h ↦ absurd h not_mem_nil⟩
  apply (traces_spared hp.apart hspared).bind
  all_goals
    intro a host₁ calls₁ h
    have hcalm := h.calm
  · apply (hf a host₁).imp
    exact fun r host' rest hattached ↦
      hattached.after hcalm.containers hcalm.volumes hcalm.asked hcalm.unset
  · exact ⟨hcalm.containers, hcalm.volumes, hcalm.asked, hcalm.unset⟩

theorem attaches_tryCatch {p : HostProgram Unit} {handler : HostError → HostProgram Unit}
    (hp : Attaches law p) (hhandler : ∀ e, Attaches law (handler e)) :
    Attaches law (p.tryCatch handler) := by
  intro host
  apply Traces.tryCatch
  apply (hp host).imp
  intro r host₁ calls₁ h
  cases r with
  | ok _ => exact h
  | error e =>
    apply (hhandler e host₁).imp
    exact fun r host' rest hattached ↦
      hattached.after h.containers h.volumes h.asked h.served

theorem attaches_register {binding : ReplicaBinding} :
    Attaches law (McpBrokerManager.register config platform binding) := by
  cases binding with
  | v2 binding containerId dockerId networkName => exact attaches_registerSocket
  | v3 binding dockerId networkName =>
    exact attaches_bind blind_persistFinalizedV3 fun _ ↦ attaches_registerSocket

theorem attaches_restoreFinalizedV3 {labels : Labels} {dockerId : String} :
    Attaches law (restoreFinalizedV3 config platform labels dockerId) := by
  apply attaches_bind Asks.ofExcept
  intro replicaId
  apply attaches_bind blind_readPersistedV3
  intro found
  apply attaches_bind Asks.ofExcept
  intro networkName
  apply attaches_bind Asks.ofExcept
  intro hash
  apply attaches_bind Asks.ofExcept
  intro hubPublicJwk
  apply attaches_bind
  · apply Asks.onlyIf
    apply Asks.bind (asks_await (by rfl))
    intro _
    exact asks_await (by rfl)
  · exact fun _ ↦ attaches_register

theorem attaches_restoreOrRegisterProvisioningV3 {dockerId networkName : String} {labels : Labels} :
    Attaches law (restoreOrRegisterProvisioningV3 config platform binding dockerId
      networkName labels) := by
  apply attaches_tryCatch attaches_restoreFinalizedV3
  intro e
  split
  · exact attaches_throw
  · exact attaches_registerSocket

/-- The registration stays if the container cannot be started again. -/
theorem traces_resumed {id : String} (h : Attached host (.ok ()) host₁ calls) :
    Judges law host calls (resumed config req id existing) host₁ := by
  have hasks : Asks (fun c : HostCall ↦ c.movesServers = false ∧ ∀ request, c ≠ .createContainer request)
      (resumed config req id existing) := by
    unfold resumed
    split
    · apply Asks.bind (asks_startContainer ⟨rfl, nofun⟩)
      intro _
      apply Asks.bind (blind_getById.idle.imp fun c hc ↦ ⟨(moves_of_idle hc).2.2.2, by
        rintro request rfl
        cases hc⟩)
      intro found
      cases found with
      | some found => exact Asks.pure
      | none => trivial
    · exact Asks.pure
  apply (traces_keeping Host.servers hasks fun _ _ _ hc ↦ servers_respond hc.1).imp
  rintro r host' rest ⟨hservers, hrest⟩ e _
  obtain ⟨replicaId, server, hset, hlookup⟩ := h.served
  have hset' : Took (.setServer replicaId server) (calls ++ rest) := took_append.mpr (.inl hset)
  apply iff_of_false
  · intro hrolled
    apply hrolled.servers replicaId server hset'
    rw [hservers, hlookup]
  · intro hrevertible
    obtain ⟨request, x, hx⟩ := hrevertible.own replicaId server hset'
    obtain hx | hx := mem_append.mp hx
    · cases (h.asked _ hx).1
    · exact (hrest _ hx).2 request rfl

theorem traces_resume (h : Spared host host₁ calls) :
    Judges law host calls (resume config platform req binding existing) host₁ := by
  have hinspected : Traces (hostMachine law) (fun _ host' rest ↦ Calm host host' (calls ++ rest))
      (await (.inspect existing.dockerId)) host₁ := by
    apply (traces_await (.inspect existing.dockerId)).imp
    rintro r _ _ ⟨x, -, -, rfl, rfl⟩
    exact h.calm.inspected
  apply hinspected.bind_after (R := fun _ ↦ Calm host)
  · intro (info : HostContainer) host₂ calls₂ h
    apply Traces.guard
    · intro _
      rw [append_nil]
      exact h.judged
    intro _
    apply Traces.ofExcept_bind
    · intro e _
      rw [append_nil]
      exact h.judged
    intro networkName _
    have hrestore : Attaches law (restoreOrRegisterProvisioningV3 config platform
        binding existing.dockerId networkName info.labels) :=
      attaches_restoreOrRegisterProvisioningV3
    have hattached := (hrestore host₂).imp fun r host' rest hattached ↦
      hattached.after h.containers h.volumes h.asked h.unset
    apply hattached.bind_after (R := Attached host)
    · exact fun _ host₃ calls₃ h ↦ traces_resumed h
    · intro e host₃ calls₃ h
      have hcalm : Calm host host₃ calls₃ := ⟨h.containers, h.volumes, h.asked, h.served⟩
      exact hcalm.judged
  · exact fun e host₂ calls₂ h ↦ h.judged

end Resume

/-! ## Undoing -/

section Undoing

variable {α : Type} {host₁ : Host} {names : List String} {dockerId : Option String}

/-- An attempt that can be undone: the volumes that it ensured, and the container that it made. -/
structure Progress (req : DeployRequest) (host host₁ : Host) (names : List String)
    (dockerId : Option String) (calls : List (HostCall × HostChoice)) : Prop where
  fixed : ∀ id, some id ≠ dockerId → host₁.fixedOf id = host.fixedOf id
  fresh : ∀ id, dockerId = some id → host.fixedOf id = none ∧
    ∃ request x, (.createContainer request, x) ∈ calls
  kept : ∀ name ∈ host.volumes, name ∈ host₁.volumes
  ensured : ∀ name, name ∈ names ↔
    ∃ labels x, (.createVolume name labels, x) ∈ calls ∧ x.failure = none
  known : ∀ request x, (.createContainer request, x) ∈ calls → x.done = true →
    dockerId = some x.dockerId ∧ x.failure = none ∧
      ∃ y, (.inspect x.dockerId, y) ∈ calls ∧ y.failure = none
  set : ∀ replicaId server, Took (.setServer replicaId server) calls →
    req.replicaId = some replicaId ∧ dockerId.isSome = true

/-- The volumes that were ensured remain those. -/
theorem ensured_append_iff {name : String} {calls' : List (HostCall × HostChoice)}
    (hno : ∀ labels x, (.createVolume name labels, x) ∉ calls') :
    (∃ labels x, (.createVolume name labels, x) ∈ calls ++ calls' ∧ x.failure = none) ↔
      ∃ labels x, (.createVolume name labels, x) ∈ calls ∧ x.failure = none := by
  simp only [mem_append, hno, or_false]

/-- What is undone is undone, except that volumes are removed that were there before. -/
theorem Progress.judged (h : Progress req host host₁ names dockerId calls)
    (hfixed : ∀ id, host'.fixedOf id = host.fixedOf id) (hvolumes : ∀ name, name ∈ host'.volumes ↔
      name ∈ host₁.volumes ∧ ¬ (name ∈ names ∧ host.mounted name = false))
    (hservers : ∀ replicaId, req.replicaId = some replicaId →
      host'.servers.lookup replicaId = none) (hundo : ∀ event ∈ calls', event.1.isCleanup) :
    Judged host r host' (calls ++ calls') := by
  have hmem : ∀ {c : HostCall} {x : HostChoice}, c.isCleanup = false →
      (c, x) ∈ calls ++ calls' → (c, x) ∈ calls := by
    intro c x hc hx
    obtain hx | hx := mem_append.mp hx
    · exact hx
    · rw [hundo _ hx] at hc
      cases hc
  have hset : ∀ replicaId server, Took (.setServer replicaId server) (calls ++ calls') →
      req.replicaId = some replicaId ∧ dockerId.isSome :=
    fun replicaId server ⟨x, hx, hdone⟩ ↦ h.set replicaId server ⟨x, hmem rfl hx, hdone⟩
  intro e _
  constructor
  · intro hrolled
    constructor
    · intro name labels x hx hnone hbefore
      by_contra hfree
      have hensured : name ∈ names := (h.ensured name).mpr ⟨labels, x, hmem rfl hx, hnone⟩
      have hleft := (hvolumes name).mp (hrolled.volumes name hbefore)
      exact hleft.2 ⟨hensured, Bool.eq_false_iff.mpr hfree⟩
    · intro request x hx hdone
      obtain ⟨-, hnone, y, hy, hnone'⟩ := h.known request x (hmem rfl hx) hdone
      exact ⟨hnone, y, mem_append_left _ hy, hnone'⟩
    · intro replicaId server htook
      obtain ⟨id, hid⟩ := isSome_iff_exists.mp (hset replicaId server htook).2
      obtain ⟨-, request, x, hx⟩ := h.fresh id hid
      exact ⟨request, x, mem_append_left _ hx⟩
  · intro hrevertible
    constructor
    · intro name hbefore
      apply (hvolumes name).mpr ⟨h.kept name hbefore, _⟩
      rintro ⟨hensured, hfree⟩
      obtain ⟨labels, x, hx, hnone⟩ := (h.ensured name).mp hensured
      have hmounted := hrevertible.volumes name labels x (mem_append_left _ hx) hnone hbefore
      rw [hfree] at hmounted
      cases hmounted
    · intro request x hx hdone
      obtain ⟨hid, -⟩ := h.known request x (hmem rfl hx) hdone
      rw [← fixedOf_eq_none_iff, hfixed]
      exact (h.fresh _ hid).1
    · intro replicaId server htook
      rw [hservers replicaId (hset replicaId server htook).1]
      exact (some_ne_none server).symm

/-- The volumes that no container mounts are removed, as far as the removal has come. -/
structure Freed (host₁ : Host) (names : List String) (host' : Host)
    (calls : List (HostCall × HostChoice)) : Prop where
  rest : host'.volumeless = host₁.volumeless
  volumes : ∀ name, name ∈ host'.volumes ↔
    name ∈ host₁.volumes ∧ ¬ (name ∈ names ∧ host₁.mounted name = false)
  undo : ∀ event ∈ calls, event.1.isCleanup = true

theorem Freed.step {name : String} {x : HostChoice} (h : Freed host₁ names host' calls)
    (hdone : x.done) :
    Freed host₁ (names ++ [name]) (respondHost (.removeVolume name) x host').2
      (calls ++ [(.removeVolume name, x)]) := by
  have hmounted : host'.mounted name = host₁.mounted name := by
    apply mounted_congr
    intro id
    rw [Host.fixedOf, Host.fixedOf, (of_volumeless h.rest).1]
  refine ⟨volumeless_removeVolume.trans h.rest, ?_, ?_⟩
  · intro other
    rw [mem_removeVolume, h.volumes, hmounted, mem_append, mem_singleton]
    constructor
    · rintro ⟨⟨hbefore, hnames⟩, hname⟩
      refine ⟨hbefore, ?_⟩
      rintro ⟨hother | rfl, hfree⟩
      · exact hnames ⟨hother, hfree⟩
      · exact hname ⟨hdone, hfree, rfl⟩
    · rintro ⟨hbefore, hnot⟩
      refine ⟨⟨hbefore, fun hother ↦ hnot ⟨.inl hother.1, hother.2⟩⟩, ?_⟩
      rintro ⟨-, hfree, rfl⟩
      exact hnot ⟨.inr rfl, hfree⟩
  · exact forall_mem_append.mpr ⟨h.undo, forall_mem_singleton.mpr rfl⟩

theorem traces_freeing : Traces (hostMachine Cleans)
    (fun r host' calls ↦ r = .ok () ∧ Freed host₁ names host' calls)
    (Program.forEach (fun name ↦ do
      let _ ← (ContainerManager.removeVolume name).settle
      .pure ()) names) host₁ := by
  apply (Traces.foldEach (F := fun _ _ _ ↦ False) (I := fun done _ ↦ Freed host₁ done) ?_ ?_).imp
  · intro r host' calls h
    cases r with
    | ok _ => exact ⟨rfl, h⟩
    | error e => exact h.elim
  · intro done name _ _ host' calls _ hdone
    have hremove : Traces (hostMachine Cleans) (fun _ host'' calls' ↦ ∃ x,
        x.failure = none ∧ host'' = (respondHost (.removeVolume name) x host').2 ∧
          calls' = [(.removeVolume name, x)]) (ContainerManager.removeVolume name) host' :=
      traces_removeVolume fun x r hx _ ↦ ⟨x, hx.2 rfl, rfl, rfl⟩
    apply hremove.settle_bind
    rintro r _ _ ⟨x, hnone, rfl, rfl⟩
    exact hdone.step (done_of_none hnone)
  · exact ⟨rfl, by simp, by simp⟩

theorem traces_withdraw : Traces (hostMachine Cleans) (fun r host' calls ↦ r = .ok () ∧
      host'.volumes = host₁.volumes ∧
      (∀ id, host'.fixedOf id = if dockerId = some id then none else host₁.fixedOf id) ∧
      ∀ event ∈ calls, event.1.isCleanup)
    (Program.forSome dockerId fun dockerId ↦ do
      let _ ← (ContainerManager.stopContainer dockerId).settle
      let _ ← (ContainerManager.removeContainer dockerId true).settle
      .pure ()) host₁ := by
  apply Traces.forSome
  · rintro rfl
    exact ⟨rfl, rfl, by simp, by simp⟩
  · rintro dockerId rfl
    apply traces_discard
    intro x y hx hy
    refine ⟨rfl, volumes_discard, ?_, by simp [isCleanup]⟩
    intro id
    rw [fixedOf_remove, fixedOf_stop, done_of_none (hy.2 rfl)]
    simp [eq_comm]

theorem traces_release : Traces (hostMachine Cleans) (fun r host' calls ↦ r = .ok () ∧
      host'.unbrokered = host₁.unbrokered ∧
      (∀ replicaId, req.replicaId = some replicaId → host'.servers.lookup replicaId = none) ∧
      ∀ event ∈ calls, event.1.isCleanup)
    (Program.forSome req.replicaId fun replicaId ↦ do
      let _ ← (McpBrokerManager.cleanup config replicaId).settle
      .pure ()) host₁ := by
  apply Traces.forSome
  · intro hnone
    refine ⟨rfl, rfl, ?_, by simp⟩
    rw [hnone]
    exact nofun
  · intro replicaId hsome
    have hkept : Traces (hostMachine Cleans) (fun _ host' calls' ↦
        host'.unbrokered = host₁.unbrokered ∧ ∀ event ∈ calls', CleanupCall replicaId event.1)
        (McpBrokerManager.cleanup config replicaId) host₁ :=
      traces_keeping Host.unbrokered asks_cleanup fun _ _ _ hc ↦ unbrokered_cleanup hc
    apply (traces_cleaned.and hkept).settle_bind
    rintro _ host' calls' ⟨hcleaned, hsame, hcalls⟩
    refine ⟨rfl, hsame, ?_, ?_⟩
    · intro other hother
      obtain rfl := some.inj (hsome.symm.trans hother)
      rw [hcleaned.servers]
      exact AList.lookup_erase _ _
    · intro event hevent
      rw [append_nil] at hevent
      have hcall := hcalls event hevent
      cases event
      cases hcall <;> rfl

theorem traces_rollBack (h : Progress req host host₁ names dockerId calls) :
    Judges Cleans host calls (rollBack config req dockerId names e) host₁ := by
  apply traces_withdraw.bind
  · rintro _ host₂ calls₂ ⟨-, hvolumes₂, hfixed₂, hundo₂⟩
    apply traces_freeing.bind
    · rintro _ host₃ calls₃ ⟨-, hfreed⟩
      apply traces_release.bind
      · rintro _ host₄ calls₄ ⟨-, hsame, hservers, hundo₄⟩
        obtain ⟨hcontainers, hvolumes⟩ := of_unbrokered hsame
        have hfixed : ∀ id, host₂.fixedOf id = host.fixedOf id := by
          intro id
          rw [hfixed₂]
          split
          next hid => rw [(h.fresh id hid).1]
          next hid => exact h.fixed id (Ne.symm hid)
        have hfixed₄ : ∀ id, host₄.fixedOf id = host.fixedOf id := by
          intro id
          rw [← hfixed, Host.fixedOf, Host.fixedOf, hcontainers, (of_volumeless hfreed.rest).1]
        apply h.judged hfixed₄ _ hservers
        · intro event hevent
          simp only [mem_append, not_mem_nil, or_false] at hevent
          obtain hevent | hevent | hevent := hevent
          · exact hundo₂ event hevent
          · exact hfreed.undo event hevent
          · exact hundo₄ event hevent
        · intro name
          rw [hvolumes, hfreed.volumes, hvolumes₂, mounted_congr hfixed]
      · rintro _ _ _ ⟨⟨⟩, -⟩
    · rintro _ _ _ ⟨⟨⟩, -⟩
  · rintro _ _ _ ⟨⟨⟩, -⟩

/-- A container is there whose id did not come back. -/
def Lost (host₁ : Host) (calls : List (HostCall × HostChoice)) : Prop :=
  ∃ request x, (.createContainer request, x) ∈ calls ∧ x.done = true ∧
    x.dockerId ∈ host₁.containers ∧
    (x.failure ≠ none ∨ ∀ y, (.inspect x.dockerId, y) ∈ calls → y.failure ≠ none)

theorem Lost.judged (h : Lost host' calls) : Judged host r host' calls := by
  obtain ⟨request, x, hx, hdone, hmem, hunknown⟩ := h
  intro e _
  apply iff_of_false
  · exact fun hrolled ↦ hrolled.containers request x hx hdone hmem
  · intro hrevertible
    obtain ⟨hnone, y, hy, hnone'⟩ := hrevertible.known request x hx hdone
    obtain hfailed | hfailed := hunknown
    · exact hfailed hnone
    · exact hfailed y hy hnone'

/-- A container that is not known of stays. -/
theorem traces_rollBack_lost {law : HostCall → HostChoice → Prop} (h : Lost host₁ calls) :
    Judges law host calls (rollBack config req none names e) host₁ := by
  have hasks : Asks (fun c : HostCall ↦ c.movesContainers = false ∧ ∀ dockerId, c ≠ .inspect dockerId)
      (rollBack config req none names e) := by
    apply asks_rollBack (fun _ ↦ ⟨rfl, nofun⟩)
    intro replicaId
    apply asks_cleanup.imp
    intro c hc
    cases hc <;> exact ⟨rfl, nofun⟩
  apply (traces_keeping Host.containers hasks fun _ _ _ hc ↦ containers_respond hc.1).imp
  rintro r host' rest ⟨hcontainers, hrest⟩
  obtain ⟨request, x, hx, hdone, hmem, hunknown⟩ := h
  apply Lost.judged
  refine ⟨request, x, mem_append_left _ hx, hdone, hcontainers ▸ hmem, ?_⟩
  apply hunknown.imp_right
  intro hfailed y hy
  obtain hy | hy := mem_append.mp hy
  · exact hfailed y hy
  · exact absurd rfl ((hrest _ hy).2 x.dockerId)

end Undoing

/-! ## Installing -/

section Installing

variable {law : HostCall → HostChoice → Prop} {host₁ : Host} {names : List String}

/-- The volumes of a deployment, before its container is created. -/
structure Ensured (host host₁ : Host) (names : List String)
    (calls : List (HostCall × HostChoice)) : Prop where
  containers : host₁.containers = host.containers
  kept : ∀ name ∈ host.volumes, name ∈ host₁.volumes
  ensured : ∀ name, name ∈ names ↔
    ∃ labels x, (.createVolume name labels, x) ∈ calls ∧ x.failure = none
  asked : ∀ event ∈ calls, event.1.apart = true ∨ ∃ name labels, event.1 = .createVolume name labels

variable {x : HostChoice}

theorem Ensured.not_mem (h : Ensured host host₁ names calls) (hapart : c.apart = false)
    (hvolume : ∀ name labels, c ≠ .createVolume name labels) : (c, x) ∉ calls := by
  intro hx
  obtain hasked | ⟨name, labels, hasked⟩ := h.asked _ hx
  · rw [hasked] at hapart
    cases hapart
  · exact hvolume name labels hasked

theorem Ensured.progress (h : Ensured host host₁ names calls) :
    Progress req host host₁ names none calls := by
  constructor
  · intro id _
    rw [Host.fixedOf, Host.fixedOf, h.containers]
  · intro id h
    cases h
  · exact h.kept
  · exact h.ensured
  · intro request x hx
    exact absurd hx (h.not_mem rfl (by simp))
  · rintro replicaId server ⟨x, hx, -⟩
    exact absurd hx (h.not_mem rfl (by simp))

theorem Spared.ensured (h : Spared host host₁ calls) : Ensured host host₁ [] calls := by
  constructor
  · exact h.containers
  · rw [h.volumes]
    exact fun _ hname ↦ hname
  · intro name
    simp only [not_mem_nil, false_iff]
    rintro ⟨labels, x, hx, -⟩
    cases h.asked _ hx
  · exact fun event hevent ↦ .inl (h.asked event hevent)

variable {labels : Labels} {name : String}

theorem mem_createVolume {other : String} (h : other ∈ host.volumes) :
    other ∈ (respondHost (.createVolume name labels) x host).2.volumes := by
  rw [respondHost_snd]
  split
  · simp only [serve]
    split
    · exact h
    · rw [AList.mem_insert]
      exact .inr h
  · exact h

theorem not_refuses_createVolume : ¬ Refuses (.createVolume name labels) host x := by
  rintro ⟨e, he, hunsettled⟩
  simp only [serve] at he
  split at he
  · split at he
    · obtain rfl := Except.error.inj he
      cases hunsettled
    · cases he
  · cases he

/-- The creation of a volume that is there succeeds as well. -/
theorem traces_ensureVolume {sizeMb : Option Nat} :
    Traces (hostMachine law) (fun r host' calls ↦ ∃ labels x,
        calls = [(.createVolume name labels, x)] ∧
        host' = (respondHost (.createVolume name labels) x host).2 ∧
        ((∃ a, r = .ok a) ↔ x.failure = none))
      (ContainerManager.ensureVolume name sizeMb labels) host := by
  apply traces_settling (c := .createVolume name _) (a := ()) (w := "create volume " ++ name)
  · intro e
    cases hstatus : e.statusCode <;> simp [settles, settledBy, hstatus]
  · intro x r _ hsettled
    refine ⟨_, x, rfl, rfl, ?_⟩
    cases r with
    | ok a => exact iff_of_true ⟨a, rfl⟩ hsettled.1
    | error e =>
      apply iff_of_false
      · rintro ⟨_, ⟨⟩⟩
      · exact hsettled.2.resolve_right not_refuses_createVolume

theorem Ensured.step {ensured : List String} (h : Ensured host host₁ names calls)
    (hensured : ∀ other, other ∈ ensured ↔ other ∈ names ∨ other = name ∧ x.failure = none) :
    Ensured host (respondHost (.createVolume name labels) x host₁).2 ensured
      (calls ++ [(.createVolume name labels, x)]) := by
  refine ⟨(containers_respond (by rfl)).trans h.containers,
    fun other hother ↦ mem_createVolume (h.kept other hother), ?_, ?_⟩
  · intro other
    rw [hensured, h.ensured]
    constructor
    · rintro (⟨labels', y, hy, hnone⟩ | ⟨rfl, hnone⟩)
      · exact ⟨labels', y, mem_append_left _ hy, hnone⟩
      · exact ⟨labels, x, by simp, hnone⟩
    · rintro ⟨labels', y, hy, hnone⟩
      obtain hy | hy := mem_append.mp hy
      · exact .inl ⟨labels', y, hy, hnone⟩
      · simp only [mem_singleton, Prod.mk.injEq, createVolume.injEq] at hy
        exact .inr ⟨hy.1.1, hy.2 ▸ hnone⟩
  · exact forall_mem_append.mpr
      ⟨h.asked, forall_mem_singleton.mpr (.inr ⟨name, labels, rfl⟩)⟩

variable {clusterId : String}

/-- The names are those of the volumes whose creation succeeded. -/
theorem traces_ensureVolumes (h : Spared host host₁ calls) :
    Traces (hostMachine law) (fun r host' calls' ↦ ∃ mounts failure, r = .ok (mounts, failure) ∧
        Ensured host host' (mounts.map (·.dockerVolumeName)) (calls ++ calls'))
      (Program.collectEach (ensureDeployVolume req clusterId) [] req.volumes) host₁ := by
  apply (Traces.collectEach
    (I := fun mounts host' calls ↦ Ensured host host' (mounts.map (·.dockerVolumeName)) calls)
    (F := fun mounts _ host' calls ↦ Ensured host host' (mounts.map (·.dockerVolumeName)) calls)
    ?_ h.ensured).imp
  · rintro r host' calls' ⟨mounts, ⟨rfl, hensured⟩ | ⟨e, rfl, hensured⟩⟩
    · exact ⟨mounts, none, rfl, hensured⟩
    · exact ⟨mounts, some e, rfl, hensured⟩
  · intro volume _ mounts host₂ calls₂ hensured
    apply traces_ensureVolume.bind
    · rintro a _ _ ⟨labels, x, rfl, rfl, hok⟩
      have hnone := hok.mp ⟨a, rfl⟩
      apply hensured.step
      simp [hnone]
    · rintro e _ _ ⟨labels, x, rfl, rfl, hok⟩
      have hsome : x.failure ≠ none := by
        intro hnone
        obtain ⟨_, ⟨⟩⟩ := hok.mpr hnone
      apply hensured.step
      simp [hsome]

theorem traces_ensured {α : Type} {p : HostProgram α} (hp : Blind p)
    (h : Ensured host host₁ names calls) :
    Traces (hostMachine law) (fun _ host' calls' ↦ Ensured host host' names (calls ++ calls')) p
      host₁ := by
  have hspared : Spared host₁ host₁ [] := ⟨rfl, rfl, fun _ h ↦ absurd h not_mem_nil⟩
  apply (traces_spared hp.apart hspared).imp
  intro r host' calls' hkept
  refine ⟨hkept.containers.trans h.containers, ?_, ?_, ?_⟩
  · rw [hkept.volumes]
    exact h.kept
  · intro name
    rw [h.ensured, ensured_append_iff]
    exact fun labels x hx ↦ nomatch hkept.asked _ hx
  · exact forall_mem_append.mpr ⟨h.asked, fun event hevent ↦ .inl (hkept.asked event hevent)⟩

/-- A container was made whose id is known, or none was, or its id is lost. -/
def Made (req : DeployRequest) (host : Host) (names : List String) (r : Except HostError String)
    (host' : Host) (calls : List (HostCall × HostChoice)) : Prop :=
  match r with
  | .ok dockerId => Progress req host host' names (some dockerId) calls
  | .error _ => Progress req host host' names none calls ∨ Lost host' calls

/-- A creation that took no effect. -/
theorem Ensured.failed (h : Ensured host host₁ names calls) (hdone : x.done = false) :
    Progress req host host₁ names none (calls ++ [(.createContainer request, x)]) := by
  have hprogress : Progress req host host₁ names none calls := h.progress
  refine ⟨hprogress.fixed, (nofun), hprogress.kept, ?_, ?_, ?_⟩
  · intro name
    rw [h.ensured]
    simp
  · intro request' y hy hdone'
    obtain hy | hy := mem_append.mp hy
    · exact absurd hy (h.not_mem rfl nofun)
    · obtain ⟨-, rfl⟩ := Prod.mk.inj (mem_singleton.mp hy)
      rw [hdone] at hdone'
      cases hdone'
  · rintro replicaId server ⟨y, hy, hset⟩
    apply hprogress.set replicaId server
    simp only [mem_append, mem_singleton, Prod.mk.injEq, reduceCtorEq, false_and,
      or_false] at hy
    exact ⟨y, hy, hset⟩

theorem Ensured.created (h : Ensured host host₁ names calls) {y : HostChoice}
    (hx : x.failure = none) (hy : y.failure = none) (hfresh : x.dockerId ∉ host₁.containers) :
    Progress req host (host₁.put x.dockerId (created request x)) names (some x.dockerId)
      (calls ++ [(.createContainer request, x), (.inspect x.dockerId, y)]) := by
  have hprogress : Progress req host host₁ names none calls := h.progress
  constructor
  · intro id hid
    rw [fixedOf_put, if_neg fun h ↦ hid (congrArg some h)]
    exact hprogress.fixed id (some_ne_none id)
  · rintro id ⟨⟩
    refine ⟨?_, request, x, by simp⟩
    rw [← hprogress.fixed _ (some_ne_none _)]
    exact fixedOf_eq_none_iff.mpr hfresh
  · exact h.kept
  · intro name
    rw [h.ensured]
    simp
  · intro request' z hz _
    have hsame : z = x := by
      simp only [mem_append, mem_cons, Prod.mk.injEq, reduceCtorEq, false_and,
        not_mem_nil, or_false] at hz
      exact (hz.resolve_left (h.not_mem rfl nofun)).2
    rw [hsame]
    exact ⟨rfl, hx, y, by simp, hy⟩
  · rintro replicaId server ⟨z, hz, hset⟩
    simp only [mem_append, mem_cons, Prod.mk.injEq, reduceCtorEq, false_and,
      not_mem_nil, or_false] at hz
    exact absurd hz (h.not_mem rfl nofun)

theorem Ensured.made (h : Ensured host host₁ names calls) {cfg : CreateContainerConfig}
    {platform : AgentPlatform} {r : Except HostError String}
    (hcreation : Creation config platform cfg host₁ r host' calls') :
    Made req host names r host' (calls ++ calls') := by
  cases hcreation with
  | refused e =>
    rw [append_nil]
    exact .inl h.progress
  | failed request x e hx hfresh =>
    cases hdone : x.done with
    | true =>
      right
      refine ⟨request, x, by simp, hdone, ?_, .inl hx⟩
      rw [respondHost_snd, if_pos hdone]
      exact (AList.mem_insert _).mpr (.inl rfl)
    | false =>
      left
      rw [respondHost_snd, if_neg (by simp [hdone])]
      exact h.failed hdone
  | lost request x y e hx hy hfresh =>
    right
    refine ⟨request, x, by simp, done_of_none hx, (AList.mem_insert _).mpr (.inl rfl), .inr ?_⟩
    intro z hz
    obtain hz | hz := mem_append.mp hz
    · exact absurd hz (h.not_mem rfl nofun)
    · simp only [mem_cons, Prod.mk.injEq, reduceCtorEq, false_and, true_and,
        not_mem_nil, or_false, false_or] at hz
      rwa [hz]
  | created request x y hx hy hfresh hrequest => exact h.created hx hy hfresh

/-- The calls after the creation of the container. -/
def Onward (req : DeployRequest) (c : HostCall) : Prop :=
  c.idle = true ∨ (∃ dockerId, c = .start dockerId) ∨
    ∃ replicaId, req.replicaId = some replicaId ∧ RegisterCall replicaId c

theorem onward_respond (h : Onward req c) :
    (respondHost c x host).2.fixedOf = host.fixedOf ∧
      (respondHost c x host).2.volumes = host.volumes := by
  have hsame : c.movesContainers = false →
      (respondHost c x host).2.fixedOf = host.fixedOf := by
    intro hc
    funext id
    rw [Host.fixedOf, Host.fixedOf, containers_respond hc]
  obtain hc | ⟨dockerId, rfl⟩ | ⟨replicaId, -, hc⟩ := h
  · have hmoves := moves_of_idle hc
    exact ⟨hsame hmoves.1, volumes_respond hmoves.2.1⟩
  · exact ⟨funext fun id ↦ fixedOf_start, volumes_respond (by rfl)⟩
  · have hmoves := moves_of_register hc
    exact ⟨hsame hmoves.1, volumes_respond hmoves.2⟩

theorem not_onward_create : ¬ Onward req (.createContainer request) := by
  rintro (hc | ⟨dockerId, hc⟩ | ⟨replicaId, -, hc⟩)
  · cases hc
  · cases hc
  · cases (moves_of_register hc).1

theorem not_onward_volume : ¬ Onward req (.createVolume name labels) := by
  rintro (hc | ⟨dockerId, hc⟩ | ⟨replicaId, -, hc⟩)
  · cases hc
  · cases hc
  · cases (moves_of_register hc).2

theorem replica_of_onward {replicaId : String} {server : Server}
    (h : Onward req (.setServer replicaId server)) : req.replicaId = some replicaId := by
  obtain hc | ⟨dockerId, hc⟩ | ⟨other, hother, hc⟩ := h
  · cases hc
  · cases hc
  · cases hc with
    | socket hc => cases hc
    | setServer server => exact hother

variable {dockerId : String}

/-- The attempt goes on with the container that it has made. -/
theorem Progress.append {host₂ : Host} (h : Progress req host host₁ names (some dockerId) calls)
    (hfixed : host₂.fixedOf = host₁.fixedOf) (hvolumes : host₂.volumes = host₁.volumes)
    (hcalls : ∀ event ∈ calls', Onward req event.1) :
    Progress req host host₂ names (some dockerId) (calls ++ calls') := by
  constructor
  · rw [hfixed]
    exact h.fixed
  · intro id hid
    obtain ⟨hfresh, request, x, hx⟩ := h.fresh id hid
    exact ⟨hfresh, request, x, mem_append_left _ hx⟩
  · rw [hvolumes]
    exact h.kept
  · intro name
    rw [h.ensured, ensured_append_iff]
    exact fun labels x hx ↦ not_onward_volume (hcalls _ hx)
  · intro request x hx hdone
    obtain hx | hx := mem_append.mp hx
    · obtain ⟨hid, hnone, y, hy, hnone'⟩ := h.known request x hx hdone
      exact ⟨hid, hnone, y, mem_append_left _ hy, hnone'⟩
    · exact absurd (hcalls _ hx) not_onward_create
  · rintro replicaId server ⟨x, hx, hdone⟩
    obtain hx | hx := mem_append.mp hx
    · exact h.set replicaId server ⟨x, hx, hdone⟩
    · exact ⟨replica_of_onward (hcalls _ hx), rfl⟩

theorem asks_registerBroker :
    Asks (Onward req) (registerBroker config platform req clusterId dockerId) := by
  unfold registerBroker
  split
  next binding hbinding =>
    apply Asks.bind Asks.ofExcept
    intro networkName
    apply asks_registerSocket.imp
    intro c hc
    exact .inr (.inr ⟨binding.replicaId, by simp [DeployRequest.replicaId, hbinding], hc⟩)
  next binding hnone hbinding =>
    apply Asks.bind Asks.throwIf
    intro _
    apply Asks.bind Asks.ofExcept
    intro networkName
    apply asks_registerSocket.imp
    intro c hc
    exact .inr (.inr ⟨binding.replicaId, by simp [DeployRequest.replicaId, hnone, hbinding], hc⟩)
  next => exact Asks.pure

theorem asks_finishDeploy {port : Int} :
    Asks (Onward req) (finishDeploy config platform req clusterId dockerId port) := by
  apply Asks.bind asks_registerBroker
  intro _
  apply Asks.bind (asks_startContainer (.inr (.inl ⟨dockerId, rfl⟩)))
  intro _
  apply Asks.bind (idle_getInternalUrl.imp fun c hc ↦ .inl hc)
  intro internalUrl
  apply Asks.bind (asks_await (.inl rfl))
  intro _
  apply Asks.bind (blind_getById.idle.imp fun c hc ↦ .inl hc)
  intro found
  cases found with
  | some found => exact Asks.pure
  | none => trivial

theorem traces_onward {α : Type} {p : HostProgram α} (hp : Asks (Onward req) p)
    (h : Progress req host host₁ names (some dockerId) calls) :
    Traces (hostMachine law)
      (fun _ host' calls' ↦ Progress req host host' names (some dockerId) (calls ++ calls')) p
      host₁ := by
  apply (traces_keeping (fun host ↦ (host.fixedOf, host.volumes)) hp fun _ _ _ hc ↦
    Prod.ext (onward_respond hc).1 (onward_respond hc).2).imp
  rintro r host' calls' ⟨hsame, hcalls⟩
  obtain ⟨hfixed, hvolumes⟩ := Prod.mk.inj hsame
  exact h.append hfixed hvolumes hcalls

theorem traces_making {α : Type} {p : HostProgram α} {f : α → HostProgram String} (hp : Blind p)
    (h : Ensured host host₁ names calls)
    (hf : ∀ a host₂ calls₂, Ensured host host₂ names calls₂ →
      Traces (hostMachine law) (fun r host' rest ↦ Made req host names r host' (calls₂ ++ rest))
        (f a) host₂) :
    Traces (hostMachine law) (fun r host' rest ↦ Made req host names r host' (calls ++ rest))
      (p >>= f) host₁ := by
  apply (traces_ensured hp h).bind
  · intro a host₂ calls₂ h
    simp only [← append_assoc]
    exact hf a host₂ _ h
  · exact fun e host₂ calls₂ h ↦ .inl h.progress

theorem traces_createDeployed {mounts : List VolumeMount} (h : Ensured host host₁ names calls) :
    Traces (hostMachine law) (fun r host' rest ↦ Made req host names r host' (calls ++ rest))
      (createDeployed config platform req clusterId baseDomain brokerMount mounts) host₁ := by
  apply traces_making (asks_await (by rfl)) h
  intro uuid host₂ calls₂ h
  apply traces_making (asks_await (by rfl)) h
  intro createdAt host₃ calls₃ h
  apply traces_createAppContainer.imp
  exact fun r host' rest hcreation ↦ h.made hcreation

/-- Whatever fails from the first volume on is undone. -/
theorem traces_install (h : Spared host host₁ calls) :
    Judges Cleans host calls (install config platform req clusterId baseDomain brokerMount)
      host₁ := by
  apply (traces_ensureVolumes h).bind_after (R := fun r host' calls ↦ ∃ mounts failure,
    r = .ok (mounts, failure) ∧ Ensured host host' (mounts.map (·.dockerVolumeName)) calls)
  · rintro _ host₂ calls₂ ⟨mounts, failure, ⟨⟩, hensured⟩
    cases failure with
    | some e => exact traces_rollBack hensured.progress
    | none =>
      apply (traces_createDeployed hensured).settle_bind
      intro r host₃ calls₃ hmade
      simp only [← append_assoc]
      cases r with
      | error e =>
        obtain hprogress | hlost := hmade
        · exact traces_rollBack hprogress
        · exact traces_rollBack_lost hlost
      | ok dockerId =>
        apply Traces.tryCatch
        apply (traces_onward asks_finishDeploy hmade).imp
        intro r host₄ calls₄ hprogress
        cases r with
        | ok found => exact judged_ok
        | error e =>
          simp only [← append_assoc]
          exact traces_rollBack hprogress
  · rintro _ _ _ ⟨_, _, ⟨⟩, -⟩

theorem apart_ensureNetwork {workspaceId : Option String} :
    Asks (fun c : HostCall ↦ c.apart) (NetworkManager.ensureNetwork config workspaceId) := by
  unfold NetworkManager.ensureNetwork
  split
  · exact Asks.pure
  · apply Asks.bind Asks.ofExcept
    intro networkName
    apply Asks.bind
    · apply (asks_await (by rfl)).tryCatch
      intro e
      split
      · trivial
      · exact Asks.pure
    intro _
    apply Asks.onlyIf
    apply Asks.bind (asks_await (by rfl))
    intro networkMode
    apply Asks.onlyIf
    apply Asks.bind (asks_await (by rfl))
    intro (info : NetworkInfo)
    apply Asks.onlyIf
    apply (asks_await (by rfl)).tryCatch
    intro e
    split
    · trivial
    · exact Asks.pure

theorem traces_installNew (h : Spared host host₁ calls) :
    Judges Cleans host calls (installNew config platform req clusterId) host₁ := by
  apply traces_sparing blind_assertHostAvailable.apart h
  intro _ host₂ calls₂ h
  apply traces_sparing blind_assertResourceBudget.apart h
  intro _ host₃ calls₃ h
  apply traces_sparing Asks.ofExcept h
  intro _ host₄ calls₄ h
  apply traces_sparing blind_pullImage.apart h
  intro _ host₅ calls₅ h
  apply traces_sparing blind_prepareBroker.apart h
  intro brokerMount host₆ calls₆ h
  exact traces_install h

theorem traces_deployManagedApp : Traces (hostMachine Cleans) (Judged host)
    (deployManagedApp config platform req) host := by
  have h : Spared host host [] := ⟨rfl, rfl, fun _ h ↦ absurd h not_mem_nil⟩
  apply traces_sparing apart_ensureNetwork h
  intro _ host₁ calls₁ h
  split
  · apply traces_sparing (asks_await (by rfl)) h
    intro clusterId host₂ calls₂ h
    exact traces_installNew h
  next binding hbinding =>
    apply traces_sparing blind_getById.apart h
    intro existing host₂ calls₂ h
    cases existing with
    | some existing => exact traces_resume h
    | none => exact traces_installNew h

end Installing

/-- With cleanup calls that succeed, a failed deployment leaves things as they were if what it did
can be undone by what it knows, and only then. -/
theorem rolledBack_iff_revertible {e : HostError}
    (run : Executes (hostMachine Cleans).traced (deployManagedApp config platform req) (host, [])
      (.threw e) (host', calls)) :
    RolledBack host host' calls ↔ Revertible host calls :=
  Traces.post (r := .error e) traces_deployManagedApp run e rfl

/-! ## A second attempt -/

namespace Sample

def deployment : DeployRequest where
  toAppRequest := appRequest
  volumes := [{ name := "data", mountPath := "/data", sizeMb := none }]
  mcpBinding := none
  mcpV3Binding := some
    { toMcpUpgradeBinding := upgradeBinding, hubOrigin := none, hubKid := none,
      hubPublicJwk := .null }

/-- The data of an earlier attempt, whose container is gone. -/
def earlierHost : Host :=
  { emptyHost with volumes := AList.singleton "privos-ws-a-app-app-data" [("mcp-app", "true")] }

/-- Only containers cannot be created. -/
def refusing (c : HostCall) (host : Host) : HostChoice :=
  match c with
  | .createContainer _ => { obliging host with failure := some { message := "no space left" } }
  | _ => obliging host

theorem refusing_lawful (c : HostCall) (host : Host) :
    (hostMachine Cleans).permits c (refusing c host) host := by
  cases c
  case createContainer => exact ⟨⟨rfl, nofun, host.freshId_not_mem⟩, nofun⟩
  all_goals exact ⟨permitsHost_obliging, fun _ ↦ rfl⟩

def failedDeployment : Except HostError DockerState.Found × Host × List (HostCall × HostChoice) :=
  (hostMachine Cleans).traced.run (fun c s ↦ refusing c s.1)
    (deployManagedApp Sample.config Sample.platform deployment) (earlierHost, [])

theorem deployment_fails : Executes (hostMachine Cleans).traced
    (deployManagedApp Sample.config Sample.platform deployment) (earlierHost, [])
    (.threw { message := "no space left" }) (failedDeployment.2.1, failedDeployment.2.2) :=
  (hostMachine Cleans).traced.executes_run (fun c s ↦ refusing c s.1)
    (fun c s ↦ refusing_lawful c s.1) _ _

end Sample

theorem rolledBack_iff_revertible_secondAttempt :
    RolledBack Sample.earlierHost Sample.failedDeployment.2.1 Sample.failedDeployment.2.2 ↔
      Revertible Sample.earlierHost Sample.failedDeployment.2.2 :=
  rolledBack_iff_revertible Sample.deployment_fails

/-- The second attempt fails, and the data of the first is gone. -/
theorem earlier_volume_removed : ∃ e host', Executes (hostMachine Cleans)
    (deployManagedApp Sample.config Sample.platform Sample.deployment) Sample.earlierHost (.threw e)
    host' ∧ "privos-ws-a-app-app-data" ∈ Sample.earlierHost.volumes ∧
      "privos-ws-a-app-app-data" ∉ host'.volumes :=
  ⟨_, _, (hostMachine Cleans).executes_run Sample.refusing Sample.refusing_lawful _ _, by decide,
    by decide⟩

end PrivosCluster.AgentHost
