import PrivosCluster.Agent.Docker
import PrivosCluster.Routing.Listeners

/-!
# Containers as the API shows them

What the agent knows of a container is read from one Docker listing: the labels that it was
created with, its state and its networks. The counters of the health monitor are laid over it.
-/

namespace PrivosCluster.Agent

open AsyncProgram Routing List

structure HealthPolicy where
  path : String
  maxFails : Int
  restart : Bool

def healthDefaults : HealthPolicy := ⟨"/health", 3, true⟩

def defaultHealth : HealthCheck := ⟨.unknown, 0, 0, none⟩

/-- The fields of the API view that the lifecycle and the health monitor read. -/
structure Container where
  id : String
  dockerContainerId : String
  state : ContainerState
  internalUrl : String
  healthCheck : HealthCheck
  healthPolicy : Option HealthPolicy

def mapState : DockerStatus → ContainerState
  | .running => .running
  | .restarting => .running
  | .created => .created
  | .exited => .stopped
  | .dead => .stopped
  | .removing => .stopped
  | .paused => .stopped

/-! ## Labels -/

/-- `parseInt(s, 10)`, where absent is `NaN`. -/
def parseInt (s : String) : Option Int :=
  let (sign, digits) : Int × List Char :=
    match s.toList.dropWhile isWhiteSpace with
    | '-' :: rest => (-1, rest)
    | '+' :: rest => (1, rest)
    | rest => (1, rest)
  match digits.takeWhile Char.isDigit with
  | [] => none
  | digits => some (sign * digits.foldl (fun n c ↦ 10 * n + (c.toNat - '0'.toNat : Nat)) (0 : Nat))

def parseHealthPolicy (labels : List (String × String)) : HealthPolicy where
  path := (truthy (labels.lookup "privos.health.path")).getD healthDefaults.path
  maxFails := ((parseInt ((labels.lookup "privos.health.max-fails").getD "")).filter (0 < ·)).getD
    healthDefaults.maxFails
  restart := (labels.lookup "privos.health.restart").elim healthDefaults.restart (· ≠ "false")

/-! ## Addresses -/

/-- The address on the workspace's own network, or else on the first network. -/
def networkIpFor (entry : DockerContainer) : Option String :=
  let preferred := entry.networks.find? fun network ↦
    "privos-ws-".toList.isPrefixOf network.name.toList
  match truthy (preferred.bind (·.ipAddress)) with
  | some ip => some ip
  | none => truthy (entry.networks.head?.bind (·.ipAddress))

def listHostPortFor (entry : DockerContainer) (port : Int) : Option Nat :=
  (entry.ports.find? fun p ↦
    (p.privatePort : Int) = port && p.type = "tcp" && p.publicPort.any (· ≠ 0)).bind (·.publicPort)

def internalUrl (entry : DockerContainer) : String :=
  let port := (parseInt ((entry.labels.lookup "privos.port").getD "0")).getD 0
  if mapState entry.status = .running then
    match networkIpFor entry with
    | some ip => "http://" ++ ip ++ ":" ++ toString port
    | none =>
      match listHostPortFor entry port with
      | some hostPort => "http://localhost:" ++ toString hostPort
      | none => ""
  else ""

/-! ## Listings -/

def mapListEntryToContainer (dockerId : String) (entry : DockerContainer) : Container where
  id := (truthy (entry.labels.lookup "privos.id")).getD dockerId
  dockerContainerId := dockerId
  state := mapState entry.status
  internalUrl := internalUrl entry
  healthCheck := defaultHealth
  healthPolicy := some (parseHealthPolicy entry.labels)

structure ListedContainer where
  container : Container
  dockerCreatedMs : Nat

def isMoreActive (a b : ListedContainer) : Bool :=
  let aRunning := decide (a.container.state = .running)
  let bRunning := decide (b.container.state = .running)
  if aRunning ≠ bRunning then aRunning else b.dockerCreatedMs < a.dockerCreatedMs

/-- One step of the `Map` that keeps the best item of every id. -/
def keepBest (best : List ListedContainer) (item : ListedContainer) : List ListedContainer :=
  if best.any fun other ↦ other.container.id = item.container.id then
    best.map fun other ↦
      if other.container.id = item.container.id ∧ isMoreActive item other then item else other
  else best ++ [item]

def pickActivePerId (items : List ListedContainer) : List Container :=
  (items.foldl keepBest []).map (·.container)

section View

variable {best items : List ListedContainer} {item : ListedContainer}

theorem ids_keepBest : (keepBest best item).map (·.container.id) =
    if item.container.id ∈ best.map (·.container.id) then best.map (·.container.id)
    else best.map (·.container.id) ++ [item.container.id] := by
  have hany : (best.any fun other ↦ other.container.id = item.container.id) =
      decide (item.container.id ∈ best.map (·.container.id)) := by
    rw [Bool.eq_iff_iff]
    simp
  simp only [keepBest, hany, decide_eq_true_eq]
  split
  · rw [List.map_map]
    apply map_congr_left
    intro other _
    dsimp only [Function.comp_apply]
    split
    next hbetter => exact hbetter.1.symm
    next => rfl
  · simp

/-- Every id that is listed is in the view once. -/
theorem ids_pickActivePerId : ((pickActivePerId items).map (·.id)).Nodup ∧
    ∀ item ∈ items, item.container.id ∈ (pickActivePerId items).map (·.id) := by
  suffices hall : ∀ best : List ListedContainer, (best.map (·.container.id)).Nodup →
      ((items.foldl keepBest best).map (·.container.id)).Nodup ∧
        ∀ id, id ∈ best.map (·.container.id) ∨ id ∈ items.map (·.container.id) →
          id ∈ (items.foldl keepBest best).map (·.container.id) by
    obtain ⟨hnodup, hmem⟩ := hall [] nodup_nil
    rw [pickActivePerId, List.map_map]
    exact ⟨hnodup, fun item hitem ↦ hmem _ (.inr (List.mem_map_of_mem hitem))⟩
  induction items with
  | nil => exact fun best hbest ↦ ⟨hbest, fun id hid ↦ hid.resolve_right not_mem_nil⟩
  | cons item items ih =>
    intro best hbest
    have hnext : ((keepBest best item).map (·.container.id)).Nodup ∧
        ∀ id, id ∈ best.map (·.container.id) ∨ id = item.container.id →
          id ∈ (keepBest best item).map (·.container.id) := by
      rw [ids_keepBest]
      split
      next hmem => exact ⟨hbest, fun id hid ↦ hid.elim (fun h ↦ h) fun h ↦ h ▸ hmem⟩
      next hmem =>
        refine ⟨hbest.append (nodup_singleton _) (by simpa using hmem), fun id hid ↦ ?_⟩
        simpa using hid
    obtain ⟨hnodup, hkept⟩ := ih _ hnext.1
    refine ⟨hnodup, fun id hid ↦ hkept id ?_⟩
    obtain hbefore | hitems := hid
    · exact .inl (hnext.2 id (.inl hbefore))
    · obtain hfirst | hlater := mem_cons.mp hitems
      · exact .inl (hnext.2 id (.inr hfirst))
      · exact .inr hlater

theorem mem_keepBest {best : List ListedContainer} {item other : ListedContainer}
    (h : other ∈ keepBest best item) : other ∈ best ∨ other = item := by
  unfold keepBest at h
  split at h
  · obtain ⟨kept, hkept, rfl⟩ := List.mem_map.mp h
    split
    · exact .inr rfl
    · exact .inl hkept
  · simpa using h

/-- Every container of the API view is one of those listed. -/
theorem mem_pickActivePerId {items : List ListedContainer} {c : Container}
    (h : c ∈ pickActivePerId items) : ∃ item ∈ items, item.container = c := by
  obtain ⟨item, hitem, rfl⟩ := List.mem_map.mp h
  refine ⟨item, ?_, rfl⟩
  suffices hall : ∀ best, item ∈ items.foldl keepBest best → item ∈ best ∨ item ∈ items by
    simpa using hall [] hitem
  clear hitem h
  induction items with
  | nil => exact fun best hbest ↦ .inl hbest
  | cons first items ih =>
    intro best hbest
    obtain hkept | hitems := ih _ hbest
    · obtain hbest | rfl := mem_keepBest hkept
      · exact .inl hbest
      · exact .inr mem_cons_self
    · exact .inr (mem_cons_of_mem _ hitems)

end View

/-- The counters of the health monitor, if it has any, replace the default ones. -/
def listEntry (entry : String × DockerContainer) : NodeProgram ListedContainer := do
  let mapped := mapListEntryToContainer entry.1 entry.2
  let health ← await (.getHealth mapped.id)
  .pure ⟨{ mapped with healthCheck := health.getD mapped.healthCheck }, entry.2.created * 1000⟩

def inspectManaged (labels : List (String × String)) : NodeProgram (List Container) := do
  let list ← await (.listContainers labels)
  let items ← Program.mapEach listEntry list
  .pure (pickActivePerId items)

def managedLabel : String × String := ("privos.managed", "true")

/-- All managed containers; sorting them by age is left out, since the monitor does not read it. -/
def listManaged : NodeProgram (List Container) := inspectManaged [managedLabel]

def getById (config : AgentConfig) (id : String) (workspaceId : Option String) :
    NodeProgram (Option Container) := do
  let workspaceId := truthy workspaceId
  Program.throwIf (config.fleetMode = true ∧ workspaceId = none)
    { message := "workspace scope required" }
  let found ← inspectManaged
    ([managedLabel, ("privos.id", id)] ++
      workspaceId.toList.map fun workspaceId ↦ ("privos.workspace", workspaceId))
  .pure found.head?

namespace LifecycleService

variable (config : AgentConfig) (store : DesiredStateStore)

def getContainerOr404 (containerId : String) (workspaceId : Option String) :
    NodeProgram Container := do
  match ← getById config containerId workspaceId with
  | some container => .pure container
  | none => .throw ⟨"Container not found: " ++ containerId, some 404⟩

/-- An operator stop, a suspension or a quarantine, as the agent carries it out. -/
def stopContainer (containerId : String) (workspaceId : Option String) :
    NodeProgram Container := do
  let c ← getContainerOr404 config containerId workspaceId
  ContainerManager.stopContainer store c.dockerContainerId
  match ← getById config containerId workspaceId with
  | some updated => .pure updated
  | none => .throw { message := "Container not found after stop: " ++ containerId }

end LifecycleService

end PrivosCluster.Agent
