import PrivosCluster.LocalRuntime.RuntimeService

/-!
# The host of the driver

The ledger file, the artifact store, the locks and the containers of one machine. A lock is granted
when nobody holds it. Any call of Docker or the broker may fail, before or after it took effect, and
others may change the containers at any time.
-/

namespace PrivosCluster.LocalRuntime

open AsyncProgram

structure ServiceState where
  ledger : LedgerStorage
  store : StoreState := {}
  locks : List String := []
  containers : List (String × ContainerInspect) := []

structure ServiceChoice where
  store : StoreChoice := {}
  /-- The ids that the ledger mints. -/
  randomUUID : String → String := fun _ ↦ "00000000-0000-4000-8000-000000000000"
  minted : ∀ runtimeId, randomUUID runtimeId ≠ "" := by intro _; decide
  failure : Option ServiceError := none
  takesEffect : Bool := true
  /-- What others do to the containers before the call. -/
  elsewhere : List (String × ContainerInspect) → List (String × ContainerInspect) := id
  containerId : String := ""
  address : String := ""
  time : Int := 1000

def ServiceChoice.answer {α : Type} (x : ServiceChoice) (a : α) : Except ServiceError α :=
  x.failure.elim (.ok a) .error

def ServiceState.settled (s : ServiceState) (x : ServiceChoice) : ServiceState :=
  { s with containers := x.elsewhere s.containers }

/-- A change of the containers, if the call takes effect. -/
def ServiceState.docker (s : ServiceState) (x : ServiceChoice)
    (change : List (String × ContainerInspect) → List (String × ContainerInspect)) :
    Except ServiceError Unit × ServiceState :=
  (x.answer (), if x.takesEffect then { s with containers := change s.containers } else s)

def updateContainer (id : String) (change : ContainerInspect → ContainerInspect)
    (containers : List (String × ContainerInspect)) : List (String × ContainerInspect) :=
  containers.map fun entry ↦ if entry.2.id = id then (entry.1, change entry.2) else entry

section

variable (platform : DriverPlatform) (inspection : String → ImageInspect)

/-- A created container, which does not run yet. -/
def CreateSpec.container (spec : CreateSpec) (id : String) : ContainerInspect where
  id := id
  image := (inspection spec.image).id
  configImage := spec.image
  labels := spec.labels
  running := false
  networkMode := spec.networkMode
  readonlyRootfs := true
  portBindings := 0
  binds := 0
  mounts := [⟨spec.mount.source, spec.mount.target, false⟩]
  address := none

def ServiceChoice.ledgerPlatform (x : ServiceChoice) : LedgerPlatform where
  parses := fun text ↦ (platform.parseJson text).isSome
  randomUUID := x.randomUUID
  nonempty := x.minted

/-- A call on the ledger file. -/
def ServiceState.onLedger {α : Type} (s : ServiceState) (p : LedgerM α) :
    Except ServiceError α × ServiceState :=
  (((p.exec s.ledger).1).mapError .driver, { s with ledger := (p.exec s.ledger).2 })

def ServiceState.serve : (c : ServiceCall) → ServiceChoice → ServiceState →
    Except ServiceError c.Answer × ServiceState
  | .lock runtimeId, _, s => (.ok (), { s with locks := runtimeId :: s.locks })
  | .unlock runtimeId, _, s => (.ok (), { s with locks := s.locks.filter (· ≠ runtimeId) })
  | .getByRuntimeId runtimeId, x, s =>
    s.onLedger (LocalRuntime.getByRuntimeId (x.ledgerPlatform platform) runtimeId)
  | .listRecords, x, s => s.onLedger (LocalRuntime.listRecords (x.ledgerPlatform platform))
  | .ledger call, x, s => s.onLedger (call.perform (x.ledgerPlatform platform))
  | .store call, x, s =>
    let (answer, store) := StoreState.serve inspection call x.store (s.store.settled x.store)
    (answer, { s with store })
  | .ensureNetwork, x, s => (x.answer (), s)
  | .inspectContainer name, x, s => (x.answer (s.containers.lookup name), s)
  | .createContainer spec, x, s =>
    s.docker x fun containers ↦ containers ++ [(spec.name, spec.container inspection x.containerId)]
  | .startContainer id, x, s => s.docker x (updateContainer id fun container ↦
      { container with running := true, address := some x.address })
  | .stopContainer id, x, s => s.docker x (updateContainer id fun container ↦
      { container with running := false, address := none })
  | .removeContainer id, x, s => s.docker x fun containers ↦ containers.filter (·.2.id ≠ id)
  | .waitReady _ _, x, s => (x.answer (), s)
  | .prepareBroker _, x, s => (x.answer (), s)
  | .registerProvisioning _, x, s => (x.answer (), s)
  | .registerBroker _, x, s => (x.answer (), s)
  | .cleanupBroker _, x, s => (x.answer (), s)
  | .clock, x, s => (.ok x.time, s)

/-- What the environment is allowed to do at a call. -/
abbrev ServiceLaw := ServiceCall → ServiceChoice → ServiceState → Prop

/-- A lock is granted when it is free. -/
def Grantable (c : ServiceCall) (s : ServiceState) : Prop :=
  ∀ runtimeId, c = .lock runtimeId → runtimeId ∉ s.locks

def driverHost (law : ServiceLaw) :
    Machine serviceSignature ServiceError ServiceState ServiceChoice where
  permits c x s := Grantable c s ∧ law c x s
  respond c x s := ServiceState.serve platform inspection c x (s.settled x)

end

end PrivosCluster.LocalRuntime
