import PrivosCluster.Agent.BrokerSpec
import PrivosCluster.Agent.LifecycleSpec

/-!
# What is left of a deleted container

Of the failures of a deletion only those of volumes are told. A deletion that returns has removed
the app if the container was the only one with its id, and if what was asked for was carried out.
-/

namespace PrivosCluster.AgentHost

open AsyncProgram Agent Routing LifecycleService List DockerState Option

variable {law : HostCall → HostChoice → Prop} {config : HostConfig} {host : Host}
  {containerId dockerId : String} {workspaceId : Option String} {record : HostContainer}

def replicaLabel (container : HostContainer) : Option String :=
  container.labels.lookup "privos.mcp.replica"

/-- The broker serves the binding of a replica, or can restore it. -/
def Bound (config : HostConfig) (host : Host) (replicaId : String) : Prop :=
  replicaId ∈ host.servers ∨ replicaId ∈ host.legacy ∨
    config.hasStateRoot = true ∧ replicaId ∈ host.stored

/-- Nothing is left of what was there under an id. -/
structure Deleted (config : HostConfig) (containerId : String) (workspaceId : Option String)
    (host host' : Host) : Prop where
  containers : ∀ dockerId, ¬ host'.Carries (DockerState.scopeLabels containerId workspaceId) dockerId
  volumes : ∀ entry ∈ host.matching (DockerState.scopeLabels containerId workspaceId),
    ∀ name ∈ volumesOf entry.2.mounts, name ∉ host'.volumes
  bindings : ∀ entry ∈ host.matching (DockerState.scopeLabels containerId workspaceId),
    ∀ replicaId ∈ truthy (replicaLabel entry.2), ¬ Bound config host' replicaId

/-- The container is the only one with its id, it could be looked at, and what there was to remove
was removed. -/
structure Undisturbed (config : HostConfig) (containerId : String) (workspaceId : Option String)
    (host : Host) (calls : List (HostCall × HostChoice)) : Prop where
  alone : ∀ entry ∈ host.matching (DockerState.scopeLabels containerId workspaceId),
    ∀ other ∈ host.matching (DockerState.scopeLabels containerId workspaceId), entry.1 = other.1
  removed : ∀ entry ∈ host.matching (DockerState.scopeLabels containerId workspaceId),
    Took (.remove entry.1 true) calls
  inspected : ∀ entry ∈ host.matching (DockerState.scopeLabels containerId workspaceId),
    (∀ event ∈ calls, event.1 = .inspect entry.1 → event.2.failure = none) ∨
      ∀ name ∈ volumesOf entry.2.mounts, name ∉ host.volumes
  unbound : ∀ entry ∈ host.matching (DockerState.scopeLabels containerId workspaceId),
    ∀ replicaId ∈ truthy (replicaLabel entry.2),
      (replicaId ∈ host.servers → Took (.close replicaId) calls) ∧
      (replicaId ∈ host.legacy → Took (.removeDirectory replicaId) calls) ∧
      (config.hasStateRoot = true → replicaId ∈ host.stored → Took (.removeStore replicaId) calls)

/-! ## The inspections -/

/-- What of a container is known after it was inspected twice. -/
structure Known (dockerId : String) (record : HostContainer) (remains : Remains)
    (calls : List (HostCall × HostChoice)) : Prop where
  asked : ∀ event ∈ calls, event.1 = .inspect dockerId
  volumes : ((∀ event ∈ calls, event.2.failure = none) ∧
      remains.volumeNames = volumesOf record.mounts) ∨
    (∃ event ∈ calls, event.2.failure ≠ none) ∧ remains.volumeNames = []
  replica : remains.mcpReplicaId = replicaLabel record ∨ remains.mcpReplicaId = none

theorem traces_remainsOf (hfound : host.containers.lookup dockerId = some record) :
    Traces (hostMachine law) (fun r host' calls ↦ host' = host ∧
      ∃ remains, r = .ok remains ∧ Known dockerId record remains calls) (remainsOf dockerId) host := by
  apply (traces_inspect hfound).settle_bind
  rintro outcome host' calls ⟨rfl, x, rfl, hok, herror⟩
  cases outcome with
  | error e =>
    have hfailed : x.failure ≠ none := herror e rfl
    refine ⟨rfl, ⟨none, []⟩, rfl, ?_, .inr ⟨⟨_, mem_singleton_self _, hfailed⟩, rfl⟩, .inr rfl⟩
    simp
  | ok info =>
    obtain ⟨rfl, hnone⟩ := hok info rfl
    apply (traces_getExistingMounts hfound).settle_bind
    rintro outcome host' calls ⟨rfl, y, rfl, hok, herror⟩
    cases outcome with
    | error e =>
      have hfailed : y.failure ≠ none := herror e rfl
      refine ⟨rfl, _, rfl, ?_, .inr ⟨⟨(.inspect dockerId, y), ?_, hfailed⟩, rfl⟩, .inl rfl⟩
      · simp
      · simp
    | ok mounts =>
      obtain ⟨hmounts, hnone'⟩ := hok mounts rfl
      refine ⟨rfl, _, rfl, ?_, .inl ⟨?_, hmounts⟩, .inl rfl⟩
      · simp
      · simp [hnone, hnone']

/-! ## The volumes -/

/-- What the removal of volumes leaves, as far as it has come. -/
structure VolumesRemoved (host : Host) (names : List String) (errors : List HostError)
    (host' : Host) (calls : List (HostCall × HostChoice)) : Prop where
  rest : host'.volumeless = host.volumeless
  asked : ∀ event ∈ calls, ∃ name, event.1 = .removeVolume name
  kept : names = [] → host'.volumes = host.volumes
  gone : errors = [] → ∀ name ∈ names, name ∉ host'.volumes

variable {calls : List (HostCall × HostChoice)}

variable {errors : List HostError} {name replicaId : String} {names : List String}
  {x y : HostChoice} {host₂ : Host} {remains : Remains}
  {asked looked : List (HostCall × HostChoice)}

theorem VolumesRemoved.removed {host' : Host} (h : VolumesRemoved host names errors host' calls)
    (hremoved : ¬ Refuses (.removeVolume name) host' x) (hnone : x.failure = none) :
    VolumesRemoved host (names ++ [name]) errors (respondHost (.removeVolume name) x host').2
      (calls ++ [(.removeVolume name, x)]) := by
  rw [refuses_removeVolume_iff, Bool.not_eq_true] at hremoved
  constructor
  · exact volumeless_removeVolume.trans h.rest
  · intro event hevent
    obtain hevent | hevent := mem_append.mp hevent
    · exact h.asked event hevent
    · exact ⟨name, by rw [mem_singleton.mp hevent]⟩
  · simp
  · intro hnil other hother
    rw [mem_removeVolume]
    rintro ⟨hmem, hnot⟩
    obtain hother | hother := mem_append.mp hother
    · exact h.gone hnil other hother hmem
    · exact hnot ⟨done_of_none hnone, hremoved, mem_singleton.mp hother⟩

theorem VolumesRemoved.failed {host' : Host} {e : HostError}
    (h : VolumesRemoved host names errors host' calls) :
    VolumesRemoved host (names ++ [name]) (errors ++ [e])
      (respondHost (.removeVolume name) x host').2 (calls ++ [(.removeVolume name, x)]) := by
  constructor
  · exact volumeless_removeVolume.trans h.rest
  · intro event hevent
    obtain hevent | hevent := mem_append.mp hevent
    · exact h.asked event hevent
    · exact ⟨name, by rw [mem_singleton.mp hevent]⟩
  · simp
  · simp

theorem traces_removeVolumes :
    Traces (hostMachine law) (fun r host' calls ↦
      ∃ errors, r = .ok errors ∧ VolumesRemoved host names errors host' calls)
      (removeVolumes names) host := by
  apply (Traces.foldEach (F := fun _ _ _ ↦ False) (I := VolumesRemoved host) ?_ ?_).imp
  · intro r host' calls h
    cases r with
    | ok errors => exact ⟨errors, rfl, h⟩
    | error e => exact h.elim
  · intro done name _ errors host' calls _ hdone
    have hremove : Traces (hostMachine law) (fun r host'' calls' ↦ ∃ x,
        Settled x (Refuses (.removeVolume name) host' x) r ∧
          host'' = (respondHost (.removeVolume name) x host').2 ∧
          calls' = [(.removeVolume name, x)]) (ContainerManager.removeVolume name) host' :=
      traces_removeVolume fun x r _ hsettled ↦ ⟨x, hsettled, rfl, rfl⟩
    apply hremove.settle_bind
    rintro r _ _ ⟨x, hsettled, rfl, rfl⟩
    cases r with
    | ok _ => exact hdone.removed hsettled.2 hsettled.1
    | error e => exact hdone.failed
  · constructor <;> simp

/-! ## The whole deletion -/

/-- What a deletion has done to containers and volumes. -/
structure Cleared (labels : Labels) (dockerId : String) (record : HostContainer)
    (host host' : Host) (calls : List (HostCall × HostChoice)) : Prop where
  containers : ∀ id, host'.Carries labels id ↔
    host.Carries labels id ∧ ¬ (Took (.remove dockerId true) calls ∧ id = dockerId)
  volumes : ((∀ event ∈ calls, event.1 = .inspect dockerId → event.2.failure = none) ∧
      ∀ name ∈ volumesOf record.mounts, name ∉ host'.volumes) ∨
    ¬ (∀ event ∈ calls, event.1 = .inspect dockerId → event.2.failure = none) ∧
      host'.volumes = host.volumes

/-- What a deletion has done once it returns. -/
structure Swept (config : HostConfig) (labels : Labels) (dockerId : String) (record : HostContainer)
    (host host' : Host) (calls : List (HostCall × HostChoice)) : Prop
    extends Cleared labels dockerId record host host' calls where
  servers : ∀ replicaId ∈ truthy (replicaLabel record),
    (replicaId ∈ host'.servers ↔ replicaId ∈ host.servers ∧ ¬ Took (.close replicaId) calls)
  legacy : ∀ replicaId ∈ truthy (replicaLabel record), (replicaId ∈ host'.legacy ↔
    replicaId ∈ host.legacy ∧ ¬ Took (.removeDirectory replicaId) calls)
  stored : ∀ replicaId ∈ truthy (replicaLabel record), config.hasStateRoot = true →
    (replicaId ∈ host'.stored ↔ replicaId ∈ host.stored ∧ ¬ Took (.removeStore replicaId) calls)

section Summary

variable {host' : Host} {calls : List (HostCall × HostChoice)}

theorem Swept.bound_iff {labels : Labels} (h : Swept config labels dockerId record host host' calls)
    (hreplica : replicaId ∈ truthy (replicaLabel record)) : ¬ Bound config host' replicaId ↔
      (replicaId ∈ host.servers → Took (.close replicaId) calls) ∧
      (replicaId ∈ host.legacy → Took (.removeDirectory replicaId) calls) ∧
      (config.hasStateRoot → replicaId ∈ host.stored →
        Took (.removeStore replicaId) calls) := by
  unfold Bound
  rw [h.servers replicaId hreplica, h.legacy replicaId hreplica]
  by_cases hroot : config.hasStateRoot
  · rw [h.stored replicaId hreplica hroot]
    simp only [hroot, true_and, not_or, not_and, not_not, true_implies]
  · simp only [hroot, Bool.false_eq_true, false_and, or_false, not_or, not_and, not_not,
      false_implies, and_true]

/-- With another container under the id, that one is left. -/
theorem Swept.deleted_iff
    (h : Swept config (scopeLabels containerId workspaceId) dockerId record host host'
      calls)
    (hmem : (dockerId, record) ∈
      host.matching (scopeLabels containerId workspaceId)) :
    Deleted config containerId workspaceId host host' ↔
      Undisturbed config containerId workspaceId host calls := by
  have hrecord : ∀ entry ∈ host.matching (scopeLabels containerId workspaceId),
      entry.1 = dockerId → entry = (dockerId, record) := by
    rintro entry hentry rfl
    have hlookup := (mem_matching.mp hentry).1
    have hcontainer := hlookup.symm.trans (mem_matching.mp hmem).1
    exact Prod.ext rfl (some.inj hcontainer)
  constructor
  · intro hdeleted
    have hgone : ∀ entry ∈ host.matching (scopeLabels containerId workspaceId),
        Took (.remove dockerId true) calls ∧ entry.1 = dockerId := by
      intro entry hentry
      by_contra hleft
      exact hdeleted.containers entry.1 ((h.containers entry.1).mpr ⟨carries_of_mem hentry, hleft⟩)
    constructor
    · intro entry hentry other hother
      exact (hgone entry hentry).2.trans (hgone other hother).2.symm
    · intro entry hentry
      rw [(hgone entry hentry).2]
      exact (hgone entry hentry).1
    · intro entry hentry
      obtain rfl := hrecord entry hentry (hgone entry hentry).2
      obtain ⟨hinspected, -⟩ | ⟨-, hkept⟩ := h.volumes
      · exact .inl hinspected
      · right
        rw [← hkept]
        exact hdeleted.volumes _ hentry
    · intro entry hentry replicaId hreplica
      obtain rfl := hrecord entry hentry (hgone entry hentry).2
      exact (h.bound_iff hreplica).mp (hdeleted.bindings _ hentry replicaId hreplica)
  · intro hundisturbed
    have honly : ∀ entry ∈ host.matching (scopeLabels containerId workspaceId),
        entry = (dockerId, record) :=
      fun entry hentry ↦ hrecord entry hentry (hundisturbed.alone entry hentry _ hmem)
    constructor
    · intro id hcarries
      obtain ⟨hcarries, hleft⟩ := (h.containers id).mp hcarries
      obtain ⟨container, hentry⟩ := exists_mem_of_carries hcarries
      exact hleft ⟨hundisturbed.removed _ hmem, congrArg Prod.fst (honly _ hentry)⟩
    · intro entry hentry
      obtain rfl := honly entry hentry
      obtain ⟨-, hgone⟩ | ⟨hdisturbed, hkept⟩ := h.volumes
      · exact hgone
      · rw [hkept]
        exact (hundisturbed.inspected _ hentry).resolve_left hdisturbed
    · intro entry hentry replicaId hreplica
      obtain rfl := honly entry hentry
      exact (h.bound_iff hreplica).mpr (hundisturbed.unbound _ hentry replicaId hreplica)

end Summary

variable {labels : Labels}

/-- The cleanup of a binding leaves containers and volumes as they are. -/
theorem Cleared.append {host₁ : Host} {calls' : List (HostCall × HostChoice)}
    (h : Cleared labels dockerId record host host₁ calls)
    (hsame : host₂.unbrokered = host₁.unbrokered)
    (hasked : ∀ event ∈ calls', CleanupCall replicaId event.1) :
    Cleared labels dockerId record host host₂ (calls ++ calls') := by
  obtain ⟨hcontainers, hvolumes⟩ := of_unbrokered hsame
  have hremove : Took (.remove dockerId true) (calls ++ calls') ↔
      Took (.remove dockerId true) calls := by
    rw [took_append]
    exact or_iff_left (not_took hasked nofun)
  have hinspect : (∀ event ∈ calls ++ calls', event.1 = .inspect dockerId →
        event.2.failure = none) ↔
      ∀ event ∈ calls, event.1 = .inspect dockerId → event.2.failure = none := by
    constructor
    · exact fun h event hevent ↦ h event (mem_append_left _ hevent)
    · intro h event hevent heq
      obtain hevent | hevent := mem_append.mp hevent
      · exact h event hevent heq
      · have hcall := hasked event hevent
        rw [heq] at hcall
        cases hcall
  constructor
  · intro id
    rw [hremove, ← h.containers id]
    exact carries_congr hcontainers
  · rw [hinspect, hvolumes]
    exact h.volumes

/-- The end of a deletion, which closes the binding if it is known of. -/
theorem traces_unbind {host₃ : Host}
    (hreplica : remains.mcpReplicaId = replicaLabel record ∨ remains.mcpReplicaId = none)
    (h : Cleared labels dockerId record host host₃ calls) (hservers : host₃.servers = host.servers)
    (hstored : host₃.stored = host.stored) (hlegacy : host₃.legacy = host.legacy)
    (hasked : ∀ event ∈ calls, ∀ replicaId, ¬ CleanupCall replicaId event.1) :
    Traces (hostMachine law)
      (fun _ host' calls' ↦ Swept config labels dockerId record host host' (calls ++ calls'))
      (Program.forSome (truthy remains.mcpReplicaId) fun replicaId ↦
        (McpBrokerManager.cleanup config replicaId).settle >>= fun _ ↦ .pure ()) host₃ := by
  have hnot : ∀ {c : HostCall} {replicaId : String}, CleanupCall replicaId c → ¬ Took c calls :=
    fun hc ⟨x, hx, _⟩ ↦ hasked _ hx _ hc
  apply Traces.forSome
  · intro hnone
    rw [append_nil]
    constructor
    · exact h
    · intro replicaId _
      rw [hservers]
      exact (and_iff_left (hnot .close)).symm
    · intro replicaId _
      rw [hlegacy]
      exact (and_iff_left (hnot .removeDirectory)).symm
    · intro replicaId _ _
      rw [hstored]
      exact (and_iff_left (hnot .removeStore)).symm
  · intro replicaId hsome
    have hlabel : ∀ other ∈ truthy (replicaLabel record), other = replicaId := by
      intro other hother
      obtain hreplica | hreplica := hreplica
      · rw [hreplica] at hsome
        exact some.inj (hother.symm.trans hsome)
      · rw [hreplica] at hsome
        cases hsome
    have hkept : Traces (hostMachine law) (fun _ host' calls' ↦
        host'.unbrokered = host₃.unbrokered ∧ ∀ event ∈ calls', CleanupCall replicaId event.1)
        (McpBrokerManager.cleanup config replicaId) host₃ :=
      traces_keeping Host.unbrokered asks_cleanup fun _ _ _ hc ↦ unbrokered_cleanup hc
    apply (traces_cleaned.and hkept).settle_bind
    rintro _ host' calls' ⟨hcleaned, hsame, hcalls⟩
    have happend := h.append hsame hcalls
    rw [← append_nil calls'] at happend
    refine ⟨happend, ?_, ?_, ?_⟩
    · intro other hother
      rw [hlabel other hother, hcleaned.servers]
      simp [took_append, hcleaned.closed]
    · intro other hother
      rw [hlabel other hother, hcleaned.legacy, hlegacy, append_nil, took_append,
        or_iff_right (hnot .removeDirectory)]
    · intro other hother hroot
      rw [hlabel other hother, hcleaned.stored hroot, hstored, append_nil, took_append,
        or_iff_right (hnot .removeStore)]

/-- The calls of a deletion up to the cleanup of the binding. -/
theorem call_cases {host' : Host} {removed : List (HostCall × HostChoice)}
    (hasked : ∀ event ∈ asked, event.1 = .listContainers labels)
    (hknown : Known dockerId record remains looked)
    (hvolumes : VolumesRemoved host₂ remains.volumeNames [] host' removed)
    {event : HostCall × HostChoice} (hevent : event ∈ asked ++ (looked ++
      (.stop dockerId, x) :: (.remove dockerId true, y) :: removed)) :
    event ∈ looked ∧ event.1 = .inspect dockerId ∨ event = (.remove dockerId true, y) ∨
      event.1 = .listContainers labels ∨ event.1 = .stop dockerId ∨
      ∃ name, event.1 = .removeVolume name := by
  simp only [mem_append, mem_cons] at hevent
  obtain hevent | hevent | rfl | rfl | hevent := hevent
  · exact .inr (.inr (.inl (hasked event hevent)))
  · exact .inl ⟨hevent, hknown.asked event hevent⟩
  · exact .inr (.inr (.inr (.inl rfl)))
  · exact .inr (.inl rfl)
  · exact .inr (.inr (.inr (.inr (hvolumes.asked event hevent))))

/-- A volume of the container that was looked at is gone, or its removal has failed. -/
theorem cleared {host' : Host} {removed : List (HostCall × HostChoice)}
    (hasked : ∀ event ∈ asked, event.1 = .listContainers labels)
    (hknown : Known dockerId record remains looked) (hvolumes : VolumesRemoved
      (host.discard dockerId x y) remains.volumeNames [] host' removed) :
    Cleared labels dockerId record host host'
      (asked ++ (looked ++ (.stop dockerId, x) :: (.remove dockerId true, y) :: removed)) := by
  have hremove : Took (.remove dockerId true)
      (asked ++ (looked ++ (.stop dockerId, x) :: (.remove dockerId true, y) :: removed)) ↔
      y.done := by
    constructor
    · rintro ⟨z, hz, hdone⟩
      have hcases := call_cases hasked hknown hvolumes hz
      simp only [reduceCtorEq, and_false, exists_false, or_false, false_or, Prod.mk.injEq,
        true_and] at hcases
      rwa [← hcases]
    · intro hdone
      exact ⟨y, by simp, hdone⟩
  have hinspect : ∀ event ∈ asked ++ (looked ++
      (.stop dockerId, x) :: (.remove dockerId true, y) :: removed),
      event.1 = .inspect dockerId → event ∈ looked := by
    rintro ⟨c, z⟩ hevent rfl
    have hcases := call_cases hasked hknown hvolumes hevent
    simp only [reduceCtorEq, exists_false, or_false, Prod.mk.injEq, false_and] at hcases
    exact hcases.1
  constructor
  · intro id
    rw [hremove, carries_congr (of_volumeless hvolumes.rest).1, carries_discard]
    exact and_comm
  · obtain ⟨hnone, hnames⟩ | ⟨⟨event, hevent, hfailed⟩, hnames⟩ := hknown.volumes
    · left
      constructor
      · exact fun event hevent heq ↦ hnone event (hinspect event hevent heq)
      · rw [← hnames]
        exact hvolumes.gone rfl
    · right
      constructor
      · intro hall
        apply hfailed
        apply hall event _ (hknown.asked event hevent)
        exact mem_append_right _ (mem_append_left _ hevent)
      · rw [hvolumes.kept hnames, volumes_discard]

theorem traces_deleteContainer : Traces (hostMachine law) (fun r host' calls ↦ r = .ok () →
      ∃ dockerId record,
        (dockerId, record) ∈ host.matching (scopeLabels containerId workspaceId) ∧
        Swept config (scopeLabels containerId workspaceId) dockerId record host host'
          calls) (deleteContainer config containerId workspaceId) host := by
  apply traces_getContainerOr404.bind
  · rintro found host' asked ⟨rfl, hasked, hfound⟩
    obtain ⟨hlookup, -, -⟩ := active_of_matching (mem_of_head? (hfound found rfl))
    have hmem := mem_of_active (mem_of_head? (hfound found rfl))
    apply (traces_remainsOf hlookup).bind
    · rintro remains host' looked ⟨rfl, _, ⟨⟩, hknown⟩
      apply traces_discard
      intro x y hx hy
      apply traces_removeVolumes.bind
      · rintro errors host' removed ⟨_, ⟨⟩, hvolumes⟩
        by_cases herrors : errors = []
        · subst herrors
          have hcleared := cleared hasked hknown hvolumes
          obtain ⟨-, hservers, hstored, hlegacy⟩ := of_volumeless hvolumes.rest
          obtain ⟨hfiles, hfiles'⟩ := files_discard found.dockerId x y
          apply (traces_unbind hknown.replica hcleared (hservers.trans servers_discard)
            (hstored.trans hfiles) (hlegacy.trans hfiles') _).bind
          · intro _ host'' unbound hswept
            apply Traces.throwIf
            · exact absurd rfl
            · intro _ _
              exact ⟨found.dockerId, found.record, hmem, by simpa [DockerState.Found.dockerId] using hswept⟩
          · rintro _ _ _ _ ⟨⟩
          · rintro ⟨c, z⟩ hevent replicaId hcall
            have hcases := call_cases hasked hknown hvolumes hevent
            cases hcall <;> simp at hcases
        · apply ((Asks.any _).traces _).bind
          · intro _ _ _ _
            apply Traces.throwIf
            · rintro _ ⟨⟩
            · exact absurd herrors
          · rintro _ _ _ _ ⟨⟩
      · rintro e host' removed ⟨_, ⟨⟩, -⟩
    · rintro e host' looked ⟨-, _, ⟨⟩, -⟩
  · rintro e host' asked - ⟨⟩

/-- A deletion that returns has removed the app if it was not disturbed, and only then. -/
theorem deleted_iff_undisturbed {host' : Host} {calls : List (HostCall × HostChoice)}
    (run : Executes (hostMachine law).traced (deleteContainer config containerId workspaceId)
      (host, []) (.returned ()) (host', calls)) :
    Deleted config containerId workspaceId host host' ↔
      Undisturbed config containerId workspaceId host calls := by
  obtain ⟨dockerId, record, hmem, hswept⟩ := Traces.post (r := .ok ()) traces_deleteContainer run rfl
  exact hswept.deleted_iff hmem

/-! ## Two containers with one id -/

namespace Sample

def twin : HostContainer where
  status := .running
  labels := [managedLabel, ("privos.id", "app"), ("privos.workspace", "a")]

/-- What a redeployment leaves that is interrupted while both containers run. -/
def twins : Host := (emptyHost.put "old" twin).put "new" twin

def deletion : Except HostError Unit × Host × List (HostCall × HostChoice) :=
  freely.traced.run (fun _ s ↦ obliging s.1) (deleteContainer Sample.config "app" (some "a"))
    (twins, [])

theorem deletion_executes : Executes freely.traced
    (deleteContainer Sample.config "app" (some "a")) (twins, []) (.returned ()) (deletion.2.1, deletion.2.2) :=
  freely.traced.executes_run (fun _ s ↦ obliging s.1) (fun c s ↦ lawful c s.1) _ _

end Sample

theorem deleted_iff_undisturbed_twins :
    Deleted Sample.config "app" (some "a") Sample.twins Sample.deletion.2.1 ↔
      Undisturbed Sample.config "app" (some "a") Sample.twins Sample.deletion.2.2 :=
  deleted_iff_undisturbed Sample.deletion_executes

/-- The deletion returns, and one of the two containers is still there. -/
theorem twin_left : ∃ host', Executes Sample.freely
    (deleteContainer Sample.config "app" (some "a")) Sample.twins (.returned ()) host' ∧
      host'.Carries (DockerState.scopeLabels "app" (some "a")) "old" :=
  ⟨_, Sample.freely.executes_run (fun _ ↦ obliging) Sample.lawful _ _, Sample.twin.fixed, rfl,
    by decide⟩

end PrivosCluster.AgentHost
