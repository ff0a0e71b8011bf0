import PrivosCluster.AsyncProgram.Interleaving
import PrivosCluster.Master.AgentClient
import Mathlib.Data.List.FinRange

/-!
# The world of the master process

The collections of the database, the containers of the fleet and the requests on their way to
it, and the calls by which the services of the master act on them. A choice of the environment
decides what a call meets: a database fault, an answer of an agent, the time, a fresh id.
-/

namespace PrivosCluster

open AsyncProgram DocumentStore

structure World where
  apps : Collection MasterApp appKeys
  nodes : Collection MasterNode nodeKeys
  workspaces : Collection MasterWorkspace workspaceKeys
  runtimeResourceInventories : Collection RuntimeResourceInventory inventoryKeys
  lifecycleEvents : Collection AppLifecycleEvent eventKeys
  containers : Containers
  /-- Every request sent to an agent so far, oldest first. -/
  requests : List SentRequest
  /-- The workspaces whose lock is held. -/
  locks : List String
  clock : Time

/-- An empty database and a fleet without containers. -/
def World.initial : World where
  apps := ⟨[], List.nodup_nil⟩
  nodes := ⟨[], List.nodup_nil⟩
  workspaces := ⟨[], List.nodup_nil⟩
  runtimeResourceInventories := ⟨[], List.nodup_nil⟩
  lifecycleEvents := ⟨[], List.nodup_nil⟩
  containers := fun _ _ ↦ none
  requests := []
  locks := []
  clock := 0

/-- Services of the process and of third parties, known by their answers. -/
inductive Service where
  | now
  | randomUUID
  /-- The order in which `n` tasks started together are served. -/
  | arrivalOrder (n : Nat)
  | markDirty
  | ingressUpsert (subdomain : String) (nodeIds : List String)
  | ingressRemove (subdomain : String)
  | allocateSubdomain (listingId workspaceId : String)
  | setWorkspaceHostsSuspended (workspaceId : String) (suspended : Bool)
  | removeAllAppHosts (appId : String) (generationId : Option String)
  | primaryOf (workspaceId appId : String)

@[reducible] def Service.Answer : Service → Type
  | .now => Time
  | .randomUUID => String
  | .arrivalOrder n => { order : List (Fin n) // order.Perm (List.finRange n) }
  | .markDirty => Unit
  | .ingressUpsert _ _ => Unit
  | .ingressRemove _ => Unit
  | .allocateSubdomain _ _ => String
  | .setWorkspaceHostsSuspended _ _ => Nat
  | .removeAllAppHosts _ _ => Unit
  | .primaryOf _ _ => Option String

/-- Services of the process itself cannot fail. -/
def Service.Fallible : Service → Bool
  | .now => false
  | .randomUUID => false
  | .arrivalOrder _ => false
  | .markDirty => false
  | _ => true

inductive Call where
  | apps (op : Operation MasterApp)
  | nodes (op : Operation MasterNode)
  | workspaces (op : Operation MasterWorkspace)
  | runtimeResourceInventories (op : Operation RuntimeResourceInventory)
  | lifecycleEvents (op : Operation AppLifecycleEvent)
  | request (sent : SentRequest)
  | service (s : Service)
  | acquire (workspaceId : String)
  | release (workspaceId : String)

@[reducible] def Call.Answer : Call → Type
  | .apps op => op.Answer
  | .nodes op => op.Answer
  | .workspaces op => op.Answer
  | .runtimeResourceInventories op => op.Answer
  | .lifecycleEvents op => op.Answer
  | .request _ => AgentResponse
  | .service s => s.Answer
  | .acquire _ => Unit
  | .release _ => Unit

@[reducible] def signature : Signature := ⟨Call, Call.Answer⟩

/-- A call may fail before it takes effect, or its effect stands and only the answer is lost. -/
inductive Fault where
  | none
  | refused
  | lost
deriving DecidableEq

structure Choice where
  fault : Fault := .none
  error : JsError := ⟨"connection closed", none, none, none, none, none⟩
  /-- The answer of an agent; absent when the request is rejected. -/
  answer : Option AgentResponse := some ⟨200, {}⟩
  /-- The agent carries the request out, whatever it answers. -/
  performed : Bool := true
  /-- The id an agent gives to a new container. -/
  containerId : String := ""
  elapsed : Nat := 0
  text : String := ""
  count : Nat := 0
  primary : Option String := none
  pick : Nat := 0
  order : List Nat := []

/-- A refused write as the driver reports it. -/
def writeError : WriteError → JsError
  | .duplicateKey fields =>
    { message := "E11000 duplicate key error", code := some (.number 11000),
      keyPattern := some fields }
  | .emptyBatch => { message := "Invalid BulkOperation, Batch cannot be empty" }

def serveStore {α : Type} [DecidableEq α] {keys : α → List IndexKey} (op : Operation α) (x : Choice)
    (c : Collection α keys) : Except JsError op.Answer × Collection α keys :=
  match x.fault with
  | .refused => (.error x.error, c)
  | .lost => (.error x.error, (c.apply x.pick op).2)
  | .none => ((c.apply x.pick op).1.mapError writeError, (c.apply x.pick op).2)

def Service.serve (x : Choice) (w : World) : (s : Service) → s.Answer
  | .now => w.clock + x.elapsed
  | .randomUUID => x.text
  | .arrivalOrder n =>
    let order := x.order.filterMap fun i ↦ if h : i < n then some ⟨i, h⟩ else none
    if h : order.Perm (List.finRange n) then ⟨order, h⟩ else ⟨List.finRange n, List.Perm.refl _⟩
  | .markDirty => ()
  | .ingressUpsert _ _ => ()
  | .ingressRemove _ => ()
  | .allocateSubdomain _ _ => x.text
  | .setWorkspaceHostsSuspended _ _ => x.count
  | .removeAllAppHosts _ _ => ()
  | .primaryOf _ _ => x.primary

def respond : (c : Call) → Choice → World → Except JsError c.Answer × World
  | .apps op, x, w => ((serveStore op x w.apps).1, { w with apps := (serveStore op x w.apps).2 })
  | .nodes op, x, w =>
    ((serveStore op x w.nodes).1, { w with nodes := (serveStore op x w.nodes).2 })
  | .workspaces op, x, w =>
    ((serveStore op x w.workspaces).1, { w with workspaces := (serveStore op x w.workspaces).2 })
  | .runtimeResourceInventories op, x, w =>
    ((serveStore op x w.runtimeResourceInventories).1,
      { w with runtimeResourceInventories := (serveStore op x w.runtimeResourceInventories).2 })
  | .lifecycleEvents op, x, w =>
    ((serveStore op x w.lifecycleEvents).1,
      { w with lifecycleEvents := (serveStore op x w.lifecycleEvents).2 })
  | .request sent, x, w =>
    (match x.answer with
      | some response => .ok response
      | none => .error x.error,
      { w with
        requests := w.requests ++ [sent]
        containers := if x.performed then sent.perform x.containerId w.containers else w.containers })
  | .service s, x, w =>
    (if s.Fallible ∧ x.fault ≠ .none then .error x.error else .ok (s.serve x w),
      { w with clock := w.clock + x.elapsed })
  | .acquire workspaceId, _, w => (.ok (), { w with locks := workspaceId :: w.locks })
  | .release workspaceId, _, w => (.ok (), { w with locks := w.locks.erase workspaceId })

/-- What the environment is allowed to do at a call. -/
abbrev Law := Call → Choice → World → Prop

def cluster (law : Law) : Machine signature JsError World Choice where
  permits := law
  respond := respond

/-- The environment may do anything. -/
def anyLaw : Law := fun _ _ _ ↦ True

abbrev Async := Program signature JsError

/-! ## The calls, typed -/

abbrev awaitCall (c : Call) : Async c.Answer := @Program.ask signature JsError c

def now : Async Time := awaitCall (.service .now)

def randomUUID : Async String := awaitCall (.service .randomUUID)

def arrivalOrder (n : Nat) : Async { order : List (Fin n) // order.Perm (List.finRange n) } :=
  awaitCall (.service (.arrivalOrder n))

def markDirty : Async Unit := awaitCall (.service .markDirty)

def request (node : MasterNode) (workspaceId : String) (body : AgentRequest) :
    Async AgentResponse :=
  awaitCall (.request ⟨node.nodeId, workspaceId, body⟩)

namespace Apps

def findOne (filter : MasterApp → Bool) : Async (Option MasterApp) :=
  awaitCall (.apps (.findOne filter))

def find (filter : MasterApp → Bool) : Async (List MasterApp) :=
  awaitCall (.apps (.find filter))

def updateOne (filter : MasterApp → Bool) (update : MasterApp → MasterApp) : Async UpdateResult :=
  awaitCall (.apps (.updateOne filter update))

def upsertOne (filter : MasterApp → Bool) (update : MasterApp → MasterApp) (fresh : MasterApp) :
    Async UpdateResult :=
  awaitCall (.apps (.upsertOne filter update fresh))

def insertOne (app : MasterApp) : Async Unit := awaitCall (.apps (.insertOne app))

def replaceOne (filter : MasterApp → Bool) (replacement : MasterApp) : Async UpdateResult :=
  awaitCall (.apps (.replaceOne filter replacement))

end Apps

namespace Nodes

def find (filter : MasterNode → Bool) : Async (List MasterNode) :=
  awaitCall (.nodes (.find filter))

def updateOne (filter : MasterNode → Bool) (update : MasterNode → MasterNode) :
    Async UpdateResult :=
  awaitCall (.nodes (.updateOne filter update))

end Nodes

namespace Workspaces

def findOne (filter : MasterWorkspace → Bool) : Async (Option MasterWorkspace) :=
  awaitCall (.workspaces (.findOne filter))

def find (filter : MasterWorkspace → Bool) : Async (List MasterWorkspace) :=
  awaitCall (.workspaces (.find filter))

def updateOne (filter : MasterWorkspace → Bool) (update : MasterWorkspace → MasterWorkspace) :
    Async UpdateResult :=
  awaitCall (.workspaces (.updateOne filter update))

def upsertOne (filter : MasterWorkspace → Bool) (update : MasterWorkspace → MasterWorkspace)
    (fresh : MasterWorkspace) : Async UpdateResult :=
  awaitCall (.workspaces (.upsertOne filter update fresh))

end Workspaces

namespace RuntimeResourceInventories

def findOne (filter : RuntimeResourceInventory → Bool) :
    Async (Option RuntimeResourceInventory) :=
  awaitCall (.runtimeResourceInventories (.findOne filter))

def updateOne (filter : RuntimeResourceInventory → Bool)
    (update : RuntimeResourceInventory → RuntimeResourceInventory) : Async UpdateResult :=
  awaitCall (.runtimeResourceInventories (.updateOne filter update))

def insertOne (inventory : RuntimeResourceInventory) : Async Unit :=
  awaitCall (.runtimeResourceInventories (.insertOne inventory))

end RuntimeResourceInventories

namespace LifecycleEvents

def insertOne (event : AppLifecycleEvent) : Async Unit :=
  awaitCall (.lifecycleEvents (.insertOne event))

def insertMany (events : List AppLifecycleEvent) : Async Unit :=
  awaitCall (.lifecycleEvents (.insertMany events))

def upsertOne (filter : AppLifecycleEvent → Bool) (fresh : AppLifecycleEvent) :
    Async UpdateResult :=
  awaitCall (.lifecycleEvents (.upsertOne filter id fresh))

end LifecycleEvents

/-- `WorkspaceLock.run`: one action of a workspace at a time. -/
def withWorkspaceLock {α : Type} (workspaceId : String) (action : Async α) : Async α := do
  awaitCall (.acquire workspaceId)
  action.finallyDo (awaitCall (.release workspaceId))

/-- The law of the lock: it is taken only while nobody holds it. -/
def LockFree : Law
  | .acquire workspaceId, _, w => workspaceId ∉ w.locks
  | _, _, _ => True

/--
`Promise.all`: the tasks are served in any order, the first rejection is thrown, and otherwise
the results come in the order of the tasks. A rejection is seen when all tasks have settled.
-/
def promiseAll {α : Type} (tasks : List (Async α)) : Async (List α) := do
  let order ← arrivalOrder tasks.length
  let settled ← Program.settleInOrder tasks order.val
  match settled.find? (fun r ↦ !r.2.isOk) with
  | some (_, .error e) => .throw e
  | _ => .pure ((List.finRange tasks.length).filterMap (outcomeOf settled))

/-- Two tasks, the first of them served first. -/
def inTurn {α β : Type} (first : Async α) (second : Async β) : Async (α × β) := do
  let a ← first.settle
  let b ← second.settle
  let a ← Program.ofExcept a
  let b ← Program.ofExcept b
  .pure (a, b)

/-- `Promise.all` of two tasks with results of their own types. -/
def promiseBoth {α β : Type} (first : Async α) (second : Async β) : Async (α × β) := do
  let order ← arrivalOrder 2
  if order.val.head? = some 0 then inTurn first second
  else do
    let (b, a) ← inTurn second first
    .pure (a, b)

/-- A task that calls `agentClient.request` with a node that may be `undefined`. -/
def requestNode (node : Option MasterNode) (workspaceId : String) (body : AgentRequest) :
    Async AgentResponse :=
  match node with
  | some node => request node workspaceId body
  | none => .throw { message := "Cannot read properties of undefined (reading 'encryptedFleetKey')" }

end PrivosCluster
