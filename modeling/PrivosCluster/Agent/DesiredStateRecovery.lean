import PrivosCluster.Agent.Docker

/-!
# Recovery after a host boot

On its first start after a boot the agent starts the containers that are recorded as running, four
at a time. A container may be stopped, started or removed meanwhile.
-/

namespace PrivosCluster.Agent

open AsyncProgram

def recoveryConcurrency : Nat := 4

inductive RecoveryMode where
  | seeded
  | recovered
  | unavailable
deriving DecidableEq

/-- What became of one candidate. -/
inductive RecoveryOutcome where
  | started
  | stoppedOnReread
  | gone
  | alreadyRunning
  | oomKilled
  | brokerUnbound
  | networkMismatch
  | stoppedDuringStart
deriving DecidableEq

structure RecoverySummary where
  mode : RecoveryMode
  seeded : Nat
  started : Nat
  /-- The other outcomes, one for each candidate that was skipped. -/
  skipped : List RecoveryOutcome
  failed : Nat

def RecoverySummary.initial : RecoverySummary := ⟨.unavailable, 0, 0, [], 0⟩

/-- The name of the network for the apps of a workspace; absent when it throws. -/
def getAppNetworkName (config : AgentConfig) (workspaceId : Option String) : Option String :=
  if config.fleetMode then
    (workspaceId.filter (· ≠ "")).map fun workspaceId ↦ "privos-ws-" ++ workspaceId ++ "-apps"
  else config.appNetworkName <|> some config.dockerNetwork

/-- A character that `.` does not match. -/
def isLineTerminator (c : Char) : Bool :=
  c = '\n' || c = '\r' || c = '\u2028' || c = '\u2029'

/-- `/^privos-ws-.+-apps$/` -/
def isWorkspaceAppNetwork (name : String) : Bool :=
  let middle := (name.toList.drop 10).dropLast.dropLast.dropLast.dropLast.dropLast
  name.startsWith "privos-ws-" && name.endsWith "-apps" && 15 < name.length &&
    middle.all fun c ↦ !isLineTerminator c

namespace DesiredStateRecovery

variable (config : AgentConfig) (store : DesiredStateStore)

/-- An MCP container is started only when its broker is bound. -/
def brokerIsBound (info : DockerContainer) : NodeProgram Bool :=
  let schema := info.labels.lookup "privos.mcp.schema"
  if schema = some "2" ∨ schema = some "3" then
    match (info.labels.lookup "privos.mcp.replica").filter (· ≠ "") with
    | some replicaId => await (.isBound replicaId)
    | none => .pure false
  else .pure true

/-- A workspace network must be that of the container's workspace; it is repaired if need be. -/
def networkIsReady (dockerId : String) (info : DockerContainer) : NodeProgram Bool :=
  match info.networkMode.filter isWorkspaceAppNetwork with
  | none => .pure true
  | some networkMode =>
    match (info.labels.lookup "privos.workspace").filter (· ≠ "") with
    | none => .pure false
    | some workspaceId =>
      if getAppNetworkName config (some workspaceId) ≠ some networkMode then .pure false
      else do
        let endpoint := info.networks.find? fun endpoint ↦ endpoint.name == networkMode
        let _ ← await (.repairNetwork dockerId networkMode workspaceId
          (endpoint.bind (·.networkId)))
        .pure true

/-- A stop that landed meanwhile is honoured by stopping the container again. -/
def startChecked (dockerId : String) : NodeProgram RecoveryOutcome := do
  ContainerManager.startContainerWithoutRecord dockerId
  if (← store.get dockerId) = some .stopped then do
    ContainerManager.stopContainerWithoutRecord dockerId
    .pure .stoppedDuringStart
  else .pure .started

def recoverInspected (dockerId : String) (info : DockerContainer) : NodeProgram RecoveryOutcome :=
  if info.status.isUp then .pure .alreadyRunning
  else if info.oomKilled then .pure .oomKilled
  else do
    if !(← brokerIsBound info) then .pure .brokerUnbound
    else if !(← networkIsReady config dockerId info) then .pure .networkMismatch
    else startChecked store dockerId

def recoverOne (dockerId : String) : NodeProgram RecoveryOutcome := do
  if (← store.get dockerId) ≠ some .running then .pure .stoppedOnReread
  else
    match ← (await (.inspect dockerId)).settle with
    | .ok info => recoverInspected config store dockerId info
    | .error e =>
      if e.statusCode = some 404 then do
        store.remove dockerId
        .pure .gone
      else .throw e

/-- A worker takes one item after the other; `count` bounds how many there can be. -/
def worker {α : Type} (work : String → NodeProgram α) : (count : Nat) → NodeProgram (List α)
  | 0 => .pure []
  | count + 1 => do
    match ← await .shiftQueue with
    | none => .pure []
    | some item => do
      let result ← work item
      let results ← worker work count
      .pure (result :: results)

/-- The workers share one queue; the work does not throw. -/
def runPool {α : Type} (items : List String) (limit : Nat) (work : String → NodeProgram α) :
    NodeProgram (List α) := do
  await (.fillQueue items)
  let results ← Program.allSettled turns
    (List.replicate (min limit items.length) (worker work (items.length + 1)))
  .pure (results.flatMap fun results ↦ results.toOption.getD [])

/-- The recorded boot is another one than the current. -/
def isNewBoot (recorded : Option DesiredStateFile) (currentBoot : String) : Bool :=
  recorded.any fun state ↦ state.bootId ≠ "" && state.bootId ≠ currentBoot

/-- The containers that are recorded as running. -/
def candidates (recorded : Option DesiredStateFile) : List String :=
  recorded.elim [] fun state ↦
    (state.containers.entries.filter fun entry ↦ entry.2 = .running).map (·.1)

def recoverCandidates (recorded : Option DesiredStateFile) (currentBoot : String) :
    NodeProgram (List (Except AgentError RecoveryOutcome)) :=
  if isNewBoot recorded currentBoot then
    runPool (candidates recorded) recoveryConcurrency fun dockerId ↦
      (recoverOne config store dockerId).settle
  else .pure []

def summarize (recorded : Option DesiredStateFile) (currentBoot : String) (running : List String)
    (outcomes : List (Except AgentError RecoveryOutcome)) : RecoverySummary where
  mode := if isNewBoot recorded currentBoot then .recovered else .seeded
  seeded := running.countP fun dockerId ↦
    (recorded.bind (·.containers.lookup dockerId)).isNone
  started := outcomes.countP fun outcome ↦ outcome.toOption = some .started
  skipped := (outcomes.filterMap Except.toOption).filter (· ≠ .started)
  failed := outcomes.countP fun outcome ↦ !outcome.isOk

/-- Whatever fails, the agent goes on with what it has. -/
def recoverDesiredState : NodeProgram RecoverySummary :=
  if store.enabled then
    Program.tryCatch
      (do
        let currentBoot ← await .readBootId
        let recorded ← store.read
        let managed ← await (.listContainers [("privos.managed", "true")])
        let running := (managed.filter fun entry ↦ entry.2.status = .running).map Prod.fst
        let outcomes ← recoverCandidates config store recorded currentBoot
        -- stamped last, so that a crash half-way is retried
        store.seedAndStamp running currentBoot
        .pure (summarize recorded currentBoot running outcomes))
      fun _ ↦ .pure .initial
  else .pure .initial

end DesiredStateRecovery

end PrivosCluster.Agent
