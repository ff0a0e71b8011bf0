import PrivosCluster.Agent.DockerState

/-!
# The health monitor

A tick lists the managed containers, probes those that run and restarts one whose probes have
failed often enough. It decides on its listing, which is as old as the probes are slow.
-/

namespace PrivosCluster.Agent

open AsyncProgram

/-! ## Decisions -/

structure HealthTransition where
  next : HealthCheck
  shouldRestart : Bool

/-- At the threshold the state after the restart is taken on, before the restart is made. -/
def computeHealthTransition (current : HealthCheck) (healthy : Bool) (policy : HealthPolicy)
    (now : Time) : HealthTransition :=
  if healthy then ⟨⟨.healthy, 0, current.restartCount, some now⟩, false⟩
  else
    let failCount := current.failCount + 1
    if policy.maxFails ≤ (failCount : Int) ∧ policy.restart = true then
      ⟨⟨.unknown, 0, current.restartCount + 1, some now⟩, true⟩
    else ⟨⟨.unhealthy, failCount, current.restartCount, some now⟩, false⟩

def revertFailedRestart (afterRestart : HealthCheck) (policy : HealthPolicy) (now : Time) :
    HealthCheck :=
  ⟨.unhealthy, policy.maxFails.toNat, afterRestart.restartCount, some now⟩

/-- `Response.ok` -/
def isOkStatus (status : Nat) : Bool := 200 ≤ status && status ≤ 299

/-! ## Probes -/

namespace HealthMonitor

def fetch (url : String) : NodeProgram Nat := await (.fetch url)

/-- A server that does not know the path is asked for its manifest. -/
def probe (internalUrl healthPath : String) : NodeProgram Bool := do
  match ← (fetch (internalUrl ++ healthPath)).settle with
  | .error _ => .pure false
  | .ok status =>
    if isOkStatus status then .pure true
    else if status ≠ 404 then .pure false
    else
      match ← (fetch (internalUrl ++ "/.well-known/mcp/manifest.json")).settle with
      | .error _ => .pure false
      | .ok status => .pure (isOkStatus status)

def checkOne (c : Container) : NodeProgram Unit := do
  let policy := c.healthPolicy.getD healthDefaults
  let health ← await (.getHealth c.id)
  let current := health.getD c.healthCheck
  let healthy ← probe c.internalUrl policy.path
  let now ← await .now
  let transition := computeHealthTransition current healthy policy now
  await (.setHealth c.id transition.next)
  Program.onlyIf (transition.shouldRestart = true)
    ((ContainerManager.restartContainer c.dockerContainerId).tryCatch fun _ ↦ do
      let now ← await .now
      await (.setHealth c.id (revertFailedRestart transition.next policy now)))

/-- Whether the container was killed for its memory, looked up once for each exit. -/
def captureOomSignal (c : Container) : NodeProgram Unit := do
  let known ← await (.getOom c.id)
  Program.onlyIf (known.isNone = true)
    (Program.tryCatch
      (do
        let info ← await (.inspect c.dockerContainerId)
        Program.onlyIf (info.oomKilled = true) (do
          match info.finishedAt.filter (0 < ·) with
          | some finishedAt => await (.setOom c.id finishedAt)
          | none => do
            let now ← await .now
            await (.setOom c.id now)))
      fun _ ↦ .pure ())

def checkAll : NodeProgram Unit := do
  let containers ← listManaged
  await (.prune (containers.map (·.id)))
  let running := containers.filter (·.state = .running)
  let _ ← Program.allSettled turns (running.map checkOne)
  let exited := containers.filter (·.state = .stopped)
  let _ ← Program.allSettled turns (exited.map captureOomSignal)
  .pure ()

/-- Nothing is done while an earlier tick is under way. -/
def tick : NodeProgram Unit := do
  let entered : Bool ← await .enterTick
  Program.onlyIf (entered = true)
    (Program.finallyDo (checkAll.tryCatch fun _ ↦ .pure ()) (await .leaveTick))

end HealthMonitor

end PrivosCluster.Agent
