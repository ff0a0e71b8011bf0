import PrivosCluster.Agent.BrokerSpec
import PrivosCluster.Master.ReasonCodes

/-!
# Runtime resources at an agent

The master names a resource, and the agent removes it, or says whether it is still there. A volume
of another workspace is absent for the removal and present for the look; of two containers with one
id the removal takes the one that the view shows.
-/

namespace PrivosCluster.AgentHost

open AsyncProgram Agent Routing ReasonCodes List Option DockerState

structure RuntimeCleanupOutcome where
  kind : RuntimeResourceKind
  resourceId : String
  status : CleanupStatus
  reasonCode : Option String

def outcomeOf (resource : RuntimeResourceDescriptor) (status : CleanupStatus)
    (reasonCode : Option String) : RuntimeCleanupOutcome :=
  ⟨resource.kind, resource.resourceId, status, reasonCode⟩

def declaredContainerId (resource : RuntimeResourceDescriptor) : Option String :=
  resource.attributes.lookup "containerId" <|>
    if resource.kind = .container then some resource.resourceId else none

def declaredVolumeName (resource : RuntimeResourceDescriptor) : Option String :=
  resource.attributes.lookup "volumeName" <|>
    if resource.kind = .volume then some resource.resourceId else none

def declaredReplicaId (resource : RuntimeResourceDescriptor) : Option String :=
  resource.replicaId <|> resource.attributes.lookup "replicaId" <|>
    if resource.kind = .replica then some resource.resourceId else none

section Programs

variable (config : HostConfig) (toUpperCase : String → String)
  (resource : RuntimeResourceDescriptor) (workspaceId : Option String)

def removed : HostProgram RuntimeCleanupOutcome := .pure (outcomeOf resource .removed none)

def absent : HostProgram RuntimeCleanupOutcome := .pure (outcomeOf resource .absent none)

def unidentified (reasonCode : String) : HostProgram RuntimeCleanupOutcome :=
  .pure (outcomeOf resource .unknown (some reasonCode))

/-- The registration of a replica at the broker, which kind of resource it may be called. -/
def removeBroker : HostProgram RuntimeCleanupOutcome :=
  match truthy (declaredReplicaId resource) with
  | none => unidentified resource "REPLICA_ID_MISSING"
  | some replicaId => do
    McpBrokerManager.cleanup config replicaId
    removed resource

def removeFound (dockerId : String) : HostProgram RuntimeCleanupOutcome := do
  let _ ← (ContainerManager.stopContainer dockerId).settle
  ContainerManager.removeContainer dockerId true
  removed resource

def removeDeclaredContainer : HostProgram RuntimeCleanupOutcome :=
  match truthy (declaredContainerId resource) with
  | none => unidentified resource "CONTAINER_ID_MISSING"
  | some containerId => do
    match ← DockerState.getById config containerId workspaceId with
    | none => absent resource
    | some found => removeFound resource found.container.dockerContainerId

/-- A volume of another workspace is treated as absent. -/
def isVolumeOf (workspaceId name : String) : HostProgram Bool := do
  let labels ← ContainerManager.inspectVolume name
  .pure (labels.any fun labels ↦ labels.lookup "privos.workspace" = some workspaceId)

def removeNamedVolume (name : String) : HostProgram RuntimeCleanupOutcome :=
  Program.tryCatch (do
      ContainerManager.removeVolume name
      removed resource)
    fun e ↦ if e.statusCode = some 404 then absent resource else .throw e

def removeDeclaredVolume : HostProgram RuntimeCleanupOutcome :=
  match truthy (declaredVolumeName resource) with
  | none => unidentified resource "VOLUME_NAME_MISSING"
  | some name => do
    let visible ← match truthy workspaceId with
      | some workspaceId => isVolumeOf workspaceId name
      | none => (.pure true : HostProgram Bool)
    if visible = false then absent resource else removeNamedVolume resource name

def removeRuntimeResource : HostProgram RuntimeCleanupOutcome :=
  Program.tryCatch
    (match resource.kind with
      | .replica => removeBroker config resource
      | .container => removeDeclaredContainer config resource workspaceId
      | .volume => removeDeclaredVolume resource workspaceId
      | .brokerBinding => removeBroker config resource
      | .brokerSocket => removeBroker config resource
      | .serviceDiscovery => removeBroker config resource
      | .ingress => unidentified resource "RESOURCE_KIND_NOT_NODE_OWNED")
    fun e ↦ .pure (outcomeOf resource .failed (some (cleanupCode toUpperCase e.code)))

def stillPresent (present : Bool) (reasonCode : Option String) :
    HostProgram RuntimeCleanupOutcome :=
  if present then .pure (outcomeOf resource .failed reasonCode) else absent resource

def observeBroker (reasonCode : Option String) : HostProgram RuntimeCleanupOutcome :=
  match truthy (declaredReplicaId resource) with
  | none => unidentified resource "REPLICA_ID_MISSING"
  | some replicaId => do
    let (bound : Bool) ← await (.isBound replicaId)
    stillPresent resource bound reasonCode

def observeDeclaredContainer : HostProgram RuntimeCleanupOutcome :=
  match truthy (declaredContainerId resource) with
  | none => unidentified resource "CONTAINER_ID_MISSING"
  | some containerId => do
    let container ← DockerState.getById config containerId workspaceId
    stillPresent resource container.isSome (some "CONTAINER_STILL_PRESENT")

/-- The volumes of all workspaces are looked through. -/
def observeDeclaredVolume : HostProgram RuntimeCleanupOutcome :=
  match truthy (declaredVolumeName resource) with
  | none => unidentified resource "VOLUME_NAME_MISSING"
  | some name => do
    let (volumes : List String) ← await .listVolumes
    stillPresent resource (volumes.contains name) (some "VOLUME_STILL_PRESENT")

def observeRuntimeResource : HostProgram RuntimeCleanupOutcome :=
  Program.tryCatch
    (match resource.kind with
      | .replica => observeBroker resource (some "REPLICA_STILL_BOUND")
      | .container => observeDeclaredContainer config resource workspaceId
      | .volume => observeDeclaredVolume resource
      | .brokerBinding => observeBroker resource none
      | .brokerSocket => observeBroker resource none
      | .serviceDiscovery => observeBroker resource none
      | .ingress => unidentified resource "RESOURCE_KIND_NOT_NODE_OWNED")
    fun e ↦ .pure (outcomeOf resource .unknown (some (absenceCode toUpperCase e.code)))

end Programs

/-! ## What is seen, and what is overlooked -/

section Views

variable (config : HostConfig) (host : Host) (resource : RuntimeResourceDescriptor)
  (workspaceId : Option String)

/-- The descriptor says what to look for, in a scope that the node accepts. -/
def Identified : Prop :=
  match resource.kind with
  | .container => (truthy (declaredContainerId resource)).isSome ∧
      ¬ (config.fleetMode = true ∧ truthy workspaceId = none)
  | .volume => (truthy (declaredVolumeName resource)).isSome
  | .ingress => False
  | _ => (truthy (declaredReplicaId resource)).isSome

/-- A look finds the resource. -/
def Visible : Prop :=
  match resource.kind with
  | .container => ∃ id ∈ truthy (declaredContainerId resource), ∃ dockerId,
      host.Carries (DockerState.scopeLabels id workspaceId) dockerId
  | .volume => ∃ name ∈ truthy (declaredVolumeName resource),
      ∃ labels ∈ host.volumes.lookup name, labels.lookup "mcp-app" = some "true"
  | .ingress => False
  | _ => ∃ replicaId ∈ truthy (declaredReplicaId resource), replicaId ∈ host.servers

/-- A second container with the id, or a volume of an app that belongs to another workspace. -/
def Overlooked : Prop :=
  match resource.kind with
  | .container => ∃ id ∈ truthy (declaredContainerId resource), ∃ dockerId other,
      host.Carries (DockerState.scopeLabels id workspaceId) dockerId ∧
        host.Carries (DockerState.scopeLabels id workspaceId) other ∧ dockerId ≠ other
  | .volume => ∃ name ∈ truthy (declaredVolumeName resource),
      ∃ scope ∈ truthy workspaceId, ∃ labels ∈ host.volumes.lookup name,
        labels.lookup "mcp-app" = some "true" ∧ labels.lookup "privos.workspace" ≠ some scope
  | _ => False

end Views

section Removal

variable {law : HostCall → HostChoice → Prop} {config : HostConfig} {host : Host}
  {resource : RuntimeResourceDescriptor} {workspaceId : Option String}

/-- The registration is gone however the clearing of its files ends. -/
theorem traces_cleanup {replicaId : String} :
    Traces (hostMachine law) (fun _ host' _ ↦ replicaId ∉ host'.servers)
      (McpBrokerManager.cleanup config replicaId) host := by
  apply traces_cleaned.imp
  intro r host' calls hcleaned
  rw [hcleaned.servers]
  simp

theorem traces_removeBroker :
    Traces (hostMachine law) (fun r host' _ ↦ ∀ outcome, r = .ok outcome →
      outcome.status = .unknown ∨ (truthy (declaredReplicaId resource)).isSome ∧
        ((∃ replicaId ∈ truthy (declaredReplicaId resource), replicaId ∈ host'.servers) ↔ False))
      (removeBroker config resource) host := by
  unfold removeBroker
  split
  · rintro outcome ⟨⟩
    exact .inl rfl
  next replicaId hreplica =>
    rw [hreplica]
    apply traces_cleanup.bind
    · intro _ host' _ hgone outcome _
      exact .inr ⟨rfl, by simpa using hgone⟩
    · exact fun _ _ _ _ _ h ↦ nomatch h

theorem traces_removeFound {dockerId : String} :
    Traces (hostMachine law) (fun r host' _ ↦ ∀ outcome, r = .ok outcome →
      ∀ labels id, host'.Carries labels id ↔ id ≠ dockerId ∧ host.Carries labels id)
      (removeFound resource dockerId) host := by
  have hstop : Traces (hostMachine law)
      (fun _ host' _ ↦ ∀ labels id, host'.Carries labels id ↔ host.Carries labels id)
      (ContainerManager.stopContainer dockerId).settle host :=
    Traces.settle (traces_stopContainer fun x _ _ _ _ _ ↦ carries_stop)
  apply hstop.bind
  · intro _ host₁ _ hsame
    have hremove : Traces (hostMachine law) (fun r host' _ ↦ r = .ok () →
        ∀ labels id, host'.Carries labels id ↔ id ≠ dockerId ∧ host.Carries labels id)
        (ContainerManager.removeContainer dockerId true) host₁ := by
      apply traces_removeContainer
      rintro x r hx hsettled rfl labels id
      have hdone := done_of_none hsettled.1
      rw [carries_remove, hsame, hdone]
      simp
    apply hremove.bind
    · exact fun _ host₂ _ hleft _ _ ↦ hleft rfl
    · exact fun _ _ _ _ _ h ↦ nomatch h
  · exact fun _ _ _ _ _ h ↦ nomatch h

/-- Without the container that was removed, there is one left if there were two. -/
theorem traces_removeDeclaredContainer :
    Traces (hostMachine law) (fun r host' _ ↦ ∀ outcome, r = .ok outcome →
      outcome.status = .unknown ∨
        ((truthy (declaredContainerId resource)).isSome ∧
          ¬ (config.fleetMode ∧ truthy workspaceId = none)) ∧
        ((∃ id ∈ truthy (declaredContainerId resource), ∃ dockerId,
            host'.Carries (scopeLabels id workspaceId) dockerId) ↔
          ∃ id ∈ truthy (declaredContainerId resource), ∃ dockerId other,
            host.Carries (scopeLabels id workspaceId) dockerId ∧
              host.Carries (scopeLabels id workspaceId) other ∧ dockerId ≠ other))
      (removeDeclaredContainer config resource workspaceId) host := by
  unfold removeDeclaredContainer
  split
  · rintro outcome ⟨⟩
    exact .inl rfl
  next id hid =>
    rw [hid]
    apply traces_getById.bind
    · intro found host' calls hlooked
      obtain ⟨hscope, hfound, -⟩ := hlooked.answered
      rw [hlooked.unchanged]
      cases found with
      | none =>
        intro outcome _
        have hnone : host.matching (scopeLabels id workspaceId) = [] := by
          apply active_eq_nil_iff.mp
          exact head?_eq_none_iff.mp hfound.symm
        rw [matching_eq_nil_iff] at hnone
        refine .inr ⟨⟨rfl, hscope⟩, ?_⟩
        simp only [mem_some_iff, exists_eq_left']
        constructor
        · exact fun ⟨dockerId, hcarries⟩ ↦ absurd hcarries (hnone dockerId)
        · exact fun ⟨dockerId, _, hcarries, _⟩ ↦ absurd hcarries (hnone dockerId)
      | some found =>
        obtain ⟨-, -, hcarries⟩ := active_of_matching (mem_of_head? hfound.symm)
        apply traces_removeFound.imp
        intro r host'' _ hleft outcome hr
        refine .inr ⟨⟨rfl, hscope⟩, ?_⟩
        simp only [mem_some_iff, exists_eq_left', hleft outcome hr]
        constructor
        · exact fun ⟨other, hne, hother⟩ ↦ ⟨other, _, hother, hcarries, hne⟩
        · rintro ⟨first, second, hfirst, hsecond, hne⟩
          by_cases h : first = found.container.dockerContainerId
          · exact ⟨second, fun h' ↦ hne (h.trans h'.symm), hsecond⟩
          · exact ⟨first, h, hfirst⟩
    · exact fun _ _ _ _ _ h ↦ nomatch h

theorem traces_isVolumeOf {scope name : String} :
    Traces (hostMachine law) (fun r host' _ ↦ host' = host ∧ ∀ visible, r = .ok visible →
      visible = (host.volumes.lookup name).any
        fun labels ↦ labels.lookup "privos.workspace" = some scope)
      (isVolumeOf scope name) host := by
  apply traces_inspectVolume.bind
  · intro labels host' _ ⟨hhost, hlabels⟩
    refine ⟨hhost, ?_⟩
    rintro visible ⟨⟩
    rw [← hlabels labels rfl]
  · intro e host' _ ⟨hhost, _⟩
    exact ⟨hhost, nofun⟩

theorem traces_removeNamedVolume {name : String} :
    Traces (hostMachine law) (fun r host' _ ↦ ∀ outcome, r = .ok outcome →
      host'.volumes.lookup name = none)
      (removeNamedVolume resource name) host := by
  have hremove : Traces (hostMachine law) (fun r host' _ ↦
      (∀ u, r = .ok u → host'.volumes.lookup name = none) ∧ ∀ e, r = .error e → e.statusCode = none)
      (ContainerManager.removeVolume name) host := by
    apply traces_removeVolume
    intro x r _ hsettled
    constructor
    · rintro _ rfl
      obtain ⟨hnone, hrefuses⟩ := hsettled
      rw [refuses_removeVolume_iff, Bool.not_eq_true] at hrefuses
      rw [lookup_removeVolume, done_of_none hnone, hrefuses]
      simp
    · rintro e rfl
      exact hsettled.1
  apply Traces.tryCatch
  apply hremove.bind
  · exact fun _ _ _ hend _ _ ↦ hend.1 _ rfl
  · intro e host' _ hend
    dsimp only
    rw [hend.2 e rfl]
    intro outcome h
    cases h

/-- A volume that is not removed belongs to another workspace, or is not there. -/
theorem traces_removeDeclaredVolume :
    Traces (hostMachine law) (fun r host' _ ↦ ∀ outcome, r = .ok outcome →
      outcome.status = .unknown ∨
        (truthy (declaredVolumeName resource)).isSome ∧
        ((∃ name ∈ truthy (declaredVolumeName resource),
            ∃ labels ∈ host'.volumes.lookup name, labels.lookup "mcp-app" = some "true") ↔
          ∃ name ∈ truthy (declaredVolumeName resource), ∃ scope ∈ truthy workspaceId,
            ∃ labels ∈ host.volumes.lookup name, labels.lookup "mcp-app" = some "true" ∧
              labels.lookup "privos.workspace" ≠ some scope))
      (removeDeclaredVolume resource workspaceId) host := by
  unfold removeDeclaredVolume
  split
  · rintro outcome ⟨⟩
    exact .inl rfl
  next name hname =>
    rw [hname]
    simp only [mem_some_iff, exists_eq_left', isSome_some, true_and]
    cases truthy workspaceId with
    | none =>
      apply traces_removeNamedVolume.imp
      intro r host' _ hgone outcome hr
      simp [hgone outcome hr]
    | some scope =>
      apply traces_isVolumeOf.bind
      · intro visible host' _ ⟨hhost, hvisible⟩
        rw [hhost]
        cases hanswer : visible with
        | false =>
          rw [hanswer] at hvisible
          have hforeign := (hvisible false rfl).symm
          intro outcome _
          right
          cases hlookup : host.volumes.lookup name with
          | none => simp
          | some labels =>
            rw [hlookup] at hforeign
            simpa using fun _ ↦ of_decide_eq_false hforeign
        | true =>
          rw [hanswer] at hvisible
          have hown := (hvisible true rfl).symm
          apply traces_removeNamedVolume.imp
          intro r host' _ hgone outcome hr
          cases hlookup : host.volumes.lookup name with
          | none => simp [hgone outcome hr]
          | some labels =>
            rw [hlookup] at hown
            have hworkspace : labels.lookup "privos.workspace" = some scope :=
              of_decide_eq_true hown
            simp [hgone outcome hr, hworkspace]
      · exact fun _ _ _ _ _ h ↦ nomatch h

/-- After a removal a look finds what the removal passed over, and nothing else. -/
def Removes (config : HostConfig) (resource : RuntimeResourceDescriptor)
    (workspaceId : Option String) (host host' : Host) : Prop :=
  Identified config resource workspaceId ∧
    (Visible host' resource workspaceId ↔ Overlooked host resource workspaceId)

theorem traces_removeRuntimeResource {toUpperCase : String → String} :
    Traces (hostMachine law) (fun r host' _ ↦ ∀ outcome, r = .ok outcome →
      outcome.status = .removed ∨ outcome.status = .absent →
        Removes config resource workspaceId host host')
      (removeRuntimeResource config toUpperCase resource workspaceId) host := by
  apply Traces.tryCatch
  refine (show Traces (hostMachine law) (fun r host' _ ↦ ∀ outcome, r = .ok outcome →
    outcome.status = .unknown ∨ Removes config resource workspaceId host host') _ host from ?_).imp ?_
  · unfold Removes Identified Visible Overlooked
    cases resource.kind with
    | container => exact traces_removeDeclaredContainer
    | volume => exact traces_removeDeclaredVolume
    | ingress =>
      rintro outcome ⟨⟩
      exact .inl rfl
    | replica => exact traces_removeBroker
    | brokerBinding => exact traces_removeBroker
    | brokerSocket => exact traces_removeBroker
    | serviceDiscovery => exact traces_removeBroker
  · intro r host' _ h
    cases r with
    | ok outcome =>
      rintro outcome' ⟨⟩ hstatus
      apply (h outcome rfl).resolve_left
      rintro hunknown
      rw [hunknown] at hstatus
      simp at hstatus
    | error e =>
      rintro outcome ⟨⟩ hstatus
      simp [outcomeOf] at hstatus

end Removal

/-! ## Looking -/

section Observation

variable {law : HostCall → HostChoice → Prop} {config : HostConfig} {host : Host}
  {resource : RuntimeResourceDescriptor} {workspaceId : Option String} {reasonCode : Option String}

/-- The look finds nothing, and none of its calls failed. -/
def Finds (visible : Prop) (r : Except HostError RuntimeCleanupOutcome)
    (calls : List (HostCall × HostChoice)) : Prop :=
  match r with
  | .ok outcome => (outcome.status = .absent ↔ ¬ visible) ∧ ∀ event ∈ calls, event.2.failure = none
  | .error _ => ∃ event ∈ calls, event.2.failure ≠ none

theorem traces_stillPresent {visible : Prop} {present : Bool} {calls : List (HostCall × HostChoice)}
    (hpresent : present ↔ visible) (hcalls : ∀ event ∈ calls, event.2.failure = none) :
    Traces (hostMachine law) (fun r _ calls' ↦ Finds visible r (calls ++ calls'))
      (stillPresent resource present reasonCode) host := by
  have hcalls' : ∀ event ∈ calls ++ [], event.2.failure = none := by simpa using hcalls
  cases present with
  | true => exact ⟨by simpa [outcomeOf] using hpresent.mp rfl, hcalls'⟩
  | false => exact ⟨by simpa [outcomeOf] using hpresent, hcalls'⟩

theorem traces_observeBroker (hreplica : (truthy (declaredReplicaId resource)).isSome) :
    Traces (hostMachine law) (fun r _ calls ↦ Finds
      (∃ replicaId ∈ truthy (declaredReplicaId resource), replicaId ∈ host.servers) r calls)
      (observeBroker resource reasonCode) host := by
  obtain ⟨replicaId, hreplica⟩ := isSome_iff_exists.mp hreplica
  unfold observeBroker
  rw [hreplica]
  intro x hx
  have hnone : x.failure = none := hx.1.2.1 rfl
  have hserved : (hostMachine law).respond (.isBound replicaId) x host =
      (.ok (decide (replicaId ∈ host.servers)), host) := respondHost_of_none hnone
  rw [hserved]
  have hcalls : ∀ event ∈ [(HostCall.isBound replicaId, x)], event.2.failure = none := by
    simpa using hnone
  exact traces_stillPresent (by simp) hcalls

theorem traces_observeDeclaredContainer
    (hidentified : (truthy (declaredContainerId resource)).isSome ∧
      ¬ (config.fleetMode ∧ truthy workspaceId = none)) :
    Traces (hostMachine law) (fun r _ calls ↦ Finds
      (∃ id ∈ truthy (declaredContainerId resource), ∃ dockerId,
        host.Carries (scopeLabels id workspaceId) dockerId) r calls)
      (observeDeclaredContainer config resource workspaceId) host := by
  obtain ⟨id, hid⟩ := isSome_iff_exists.mp hidentified.1
  unfold observeDeclaredContainer
  rw [hid]
  apply traces_getById.bind
  · intro found host' calls hlooked
    obtain ⟨-, hfound, hcalls⟩ := hlooked.answered
    apply traces_stillPresent _ hcalls
    simp only [mem_some_iff, exists_eq_left']
    constructor
    · intro hsome
      obtain ⟨shown, rfl⟩ := isSome_iff_exists.mp hsome
      exact ⟨_, (active_of_matching (mem_of_head? hfound.symm)).2.2⟩
    · rintro ⟨dockerId, hcarries⟩
      rw [isSome_iff_ne_none, hfound]
      intro hnone
      have hnil := active_eq_nil_iff.mp (head?_eq_none_iff.mp hnone)
      exact matching_eq_nil_iff.mp hnil dockerId hcarries
  · intro e host' calls hlooked
    exact hlooked.answered.resolve_left hidentified.2

theorem mem_listVolumes {name : String} :
    name ∈ (host.volumes.entries.filter fun entry ↦
      entry.2.lookup "mcp-app" == some "true").map (·.1) ↔
      ∃ labels ∈ host.volumes.lookup name, labels.lookup "mcp-app" = some "true" := by
  rw [List.mem_map]
  constructor
  · rintro ⟨entry, hentry, rfl⟩
    obtain ⟨hmem, hlabel⟩ := mem_filter.mp hentry
    exact ⟨entry.2, AList.mem_lookup_iff.mpr hmem, eq_of_beq hlabel⟩
  · rintro ⟨labels, hlookup, hlabel⟩
    have hmem := AList.mem_lookup_iff.mp hlookup
    exact ⟨⟨name, labels⟩, mem_filter.mpr ⟨hmem, by simpa using hlabel⟩, rfl⟩

theorem traces_observeDeclaredVolume (hname : (truthy (declaredVolumeName resource)).isSome) :
    Traces (hostMachine law) (fun r _ calls ↦ Finds
      (∃ name ∈ truthy (declaredVolumeName resource),
        ∃ labels ∈ host.volumes.lookup name, labels.lookup "mcp-app" = some "true") r calls)
      (observeDeclaredVolume resource) host := by
  obtain ⟨name, hname⟩ := isSome_iff_exists.mp hname
  unfold observeDeclaredVolume
  rw [hname]
  intro x hx
  have hserved : (hostMachine law).respond .listVolumes x host = respondHost .listVolumes x host :=
    rfl
  rw [hserved]
  cases hfailure : x.failure with
  | none =>
    rw [respondHost_of_none hfailure]
    have hcalls : ∀ event ∈ [(HostCall.listVolumes, x)], event.2.failure = none := by
      simpa using hfailure
    apply traces_stillPresent _ hcalls
    simp only [contains_iff_mem, mem_listVolumes, mem_some_iff, exists_eq_left']
  | some e =>
    rw [respondHost_of_some hfailure]
    exact ⟨_, mem_singleton_self _, by simp [hfailure]⟩

theorem traces_observeRuntimeResource {toUpperCase : String → String}
    (hidentified : Identified config resource workspaceId) :
    Traces (hostMachine law) (fun r _ calls ↦ ∀ outcome, r = .ok outcome →
      (outcome.status = .absent ↔
        ¬ Visible host resource workspaceId ∧ ∀ event ∈ calls, event.2.failure = none))
      (observeRuntimeResource config toUpperCase resource workspaceId) host := by
  apply Traces.tryCatch
  refine (show Traces (hostMachine law) (fun r _ calls ↦
    Finds (Visible host resource workspaceId) r calls) _ host from ?_).imp ?_
  · revert hidentified
    unfold Identified Visible
    intro hidentified
    cases hkind : resource.kind <;> simp only [hkind] at hidentified ⊢
    case replica => exact traces_observeBroker hidentified
    case container => exact traces_observeDeclaredContainer hidentified
    case volume => exact traces_observeDeclaredVolume hidentified
    case brokerBinding => exact traces_observeBroker hidentified
    case brokerSocket => exact traces_observeBroker hidentified
    case serviceDiscovery => exact traces_observeBroker hidentified
  · intro r host' calls h
    cases r with
    | ok outcome =>
      rintro outcome' ⟨⟩
      rw [h.1]
      exact (and_iff_left h.2).symm
    | error e =>
      rintro outcome ⟨⟩
      obtain ⟨event, hevent, hfailure⟩ := h
      simp only [outcomeOf, reduceCtorEq, false_iff, append_nil]
      exact fun h ↦ hfailure (h.2 event hevent)

/-- A resource that was said to be removed or absent is seen again if the removal passed over it. -/
theorem observed_absent_iff {toUpperCase : String → String} {host' host'' : Host}
    {outcome outcome' : RuntimeCleanupOutcome} {calls : List (HostCall × HostChoice)}
    (removal : Executes (hostMachine law)
      (removeRuntimeResource config toUpperCase resource workspaceId) host (.returned outcome) host')
    (hstatus : outcome.status = .removed ∨ outcome.status = .absent)
    (observation : Executes (hostMachine law).traced
      (observeRuntimeResource config toUpperCase resource workspaceId) (host', [])
      (.returned outcome') (host'', calls)) :
    outcome'.status = .absent ↔
      ¬ Overlooked host resource workspaceId ∧ ∀ event ∈ calls, event.2.failure = none := by
  obtain ⟨hidentified, hvisible⟩ :=
    removal.post_returned traces_removeRuntimeResource.ends outcome rfl hstatus
  have hlook := Traces.post (r := .ok outcome') (traces_observeRuntimeResource hidentified)
    observation
  rw [hlook outcome' rfl, hvisible]

end Observation

/-! ## A volume of another workspace -/

namespace Sample

def volume : RuntimeResourceDescriptor where
  kind := .volume
  resourceId := "data"
  ownershipScope := .installationGeneration
  nodeId := none
  replicaId := none
  attributes := []

/-- The volume of an app in another workspace. -/
def foreignHost : Host :=
  { emptyHost with volumes := AList.singleton "data" [("mcp-app", "true"), ("privos.workspace", "b")] }

theorem foreign_removal : Executes freely
    (removeRuntimeResource config id volume (some "a")) foreignHost
    (.returned (outcomeOf volume .absent none)) foreignHost :=
  freely.executes_run (fun _ ↦ obliging) lawful _ _

def looked : List (HostCall × HostChoice) := [(.listVolumes, obliging foreignHost)]

theorem foreign_observation : Executes freely.traced
    (observeRuntimeResource config id volume (some "a")) (foreignHost, [])
    (.returned (outcomeOf volume .failed (some "VOLUME_STILL_PRESENT"))) (foreignHost, looked) :=
  freely.traced.executes_run (fun _ s ↦ obliging s.1) (fun c s ↦ lawful c s.1) _ _

end Sample

theorem observed_absent_iff_foreign :
    (outcomeOf Sample.volume .failed (some "VOLUME_STILL_PRESENT")).status = .absent ↔
      ¬ Overlooked Sample.foreignHost Sample.volume (some "a") ∧
        ∀ event ∈ Sample.looked, event.2.failure = none :=
  observed_absent_iff Sample.foreign_removal (.inr rfl) Sample.foreign_observation

/-- The removal answers that the volume is absent, and a look right after it finds the volume. -/
theorem foreign_volume_observed : ∃ outcome outcome' : RuntimeCleanupOutcome,
    Executes Sample.freely (removeRuntimeResource Sample.config id Sample.volume (some "a"))
      Sample.foreignHost (.returned outcome) Sample.foreignHost ∧ outcome.status = .absent ∧
    Executes Sample.freely (observeRuntimeResource Sample.config id Sample.volume (some "a"))
      Sample.foreignHost (.returned outcome') Sample.foreignHost ∧ outcome'.status = .failed :=
  ⟨_, _, Sample.foreign_removal, rfl,
    Sample.freely.executes_run (fun _ ↦ obliging) Sample.lawful _ _, rfl⟩

end PrivosCluster.AgentHost
