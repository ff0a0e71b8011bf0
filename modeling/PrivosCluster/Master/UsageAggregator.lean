import PrivosCluster.Accounting.Timeline
import PrivosCluster.Master.Types

/-!
# The usage aggregator

One day of a workspace, rolled up from its lifecycle events: hours of compute from the events of
its replicas, and the bill of each app from the events of the app. Quantities are exact.
-/

namespace PrivosCluster

open Accounting

namespace Usage

def hourMs : Int := 3600000

def dayMs : Int := 86400000

def gib : Nat := 1024 ^ 3

/-- The midnight at which the UTC day of a time begins. -/
def utcDay (value : Time) : Time := value - value % dayMs

def appLevelOnly : LifecycleEventType → Bool
  | .installed => true
  | .uninstalled => true
  | .replicasChanged => true
  | .resized => true
  | _ => false

/-- App-level events, and the QUARANTINED of a revocation, which closes an interval too. -/
def billingInterval (type : LifecycleEventType) : Bool := appLevelOnly type || type == .quarantined

/-- The events that go on with an open interval under other resources or another replica count. -/
def rebasesInterval (type : LifecycleEventType) : Bool := type == .replicasChanged || type == .resized

structure BilledResources where
  memoryMb : Nat
  cpus : Rat
  tmpSizeMb : Option Nat := none
deriving DecidableEq

structure PerAppRow where
  appId : String
  ramGbHours : Rat
  cpuHours : Rat
  storageGbDay : Rat
  resources : BilledResources
  replicaCount : Nat
  installedDayFraction : Rat
deriving DecidableEq

def emptyRow (appId : String) : PerAppRow := ⟨appId, 0, 0, 0, ⟨0, 0, none⟩, 0, 0⟩

abbrev Rows := List PerAppRow

/-- `appUsage(appId)`: the row of the app, created when there is none, is changed by `f`. -/
def withRow (appId : String) (f : PerAppRow → PerAppRow) : Rows → Rows
  | [] => [f (emptyRow appId)]
  | row :: rows => if row.appId = appId then f row :: rows else row :: withRow appId f rows

def rowOf (rows : Rows) (appId : String) : Option PerAppRow :=
  rows.find? fun row ↦ row.appId = appId

/-! ## Hours of compute -/

structure RunningInterval where
  appId : String
  resources : ContainerResources
  since : Time

def addCompute (resources : ContainerResources) (durationMs : Int) (row : PerAppRow) : PerAppRow :=
  if durationMs ≤ 0 then row
  else
    { row with
      ramGbHours := row.ramGbHours + (resources.memoryMb : Rat) / 1024 * ((durationMs : Rat) / hourMs)
      cpuHours := row.cpuHours + resources.cpus * ((durationMs : Rat) / hourMs) }

/-- The rows so far, and the intervals that are running, by the key of their replica. -/
structure Integration where
  rows : Rows
  running : List (String × RunningInterval)

def Integration.get (s : Integration) (key : String) : Option RunningInterval :=
  (s.running.find? fun entry ↦ entry.1 == key).map Prod.snd

def integrateInterval (interval : RunningInterval) (finish : Time) : Rows → Rows :=
  withRow interval.appId (addCompute interval.resources (max 0 (finish - interval.since)))

def Integration.integrate (s : Integration) (key : String) (finish : Time) : Integration :=
  match s.get key with
  | none => s
  | some interval => { s with rows := integrateInterval interval finish s.rows }

/-- `running.set`: an entry that is there keeps its place. -/
def Integration.set (s : Integration) (key : String) (interval : RunningInterval) : Integration :=
  { s with
    running :=
      if s.running.any (·.1 == key) then
        s.running.map fun entry ↦ if entry.1 = key then (key, interval) else entry
      else s.running ++ [(key, interval)] }

def Integration.delete (s : Integration) (key : String) : Integration :=
  { s with running := s.running.filter fun entry ↦ entry.1 ≠ key }

def replicaKey (event : AppLifecycleEvent) : String :=
  event.appId ++ ":" ++ event.replicaId.getD "undefined"

def integrateEvent (start : Time) (s : Integration) (event : AppLifecycleEvent) : Integration :=
  let key := replicaKey event
  let time := max start event.time
  let interval : RunningInterval := ⟨event.appId, event.resources, time⟩
  match event.type with
  | .started => (s.integrate key time).set key interval
  | .redeployed =>
    if (s.get key).isSome then (s.integrate key time).set key interval else s
  | _ => (s.integrate key time).delete key

def computeRows (start accountingEnd : Time) (events : List AppLifecycleEvent) : Rows :=
  let replicaEvents := sortByTime (·.time) (events.filter fun event ↦
    !appLevelOnly event.type && event.time < accountingEnd)
  let s := replicaEvents.foldl (integrateEvent start) ⟨[], []⟩
  (s.running.map Prod.snd).foldl (fun rows interval ↦ integrateInterval interval accountingEnd rows)
    s.rows

/-! ## Billable segments -/

structure OpenInterval where
  since : Time
  resources : ContainerResources
  replicaCount : Nat
  storageBytes : Option Nat
deriving DecidableEq

structure Segment extends OpenInterval where
  endAt : Time
deriving DecidableEq

def opened (event : AppLifecycleEvent) : OpenInterval :=
  ⟨event.time, event.resources, event.replicaCount.getD 1, event.storageBytes⟩

/-- A change of replicas or of size goes on with the interval from its time on. -/
def rebased (event : AppLifecycleEvent) (current : OpenInterval) : OpenInterval :=
  { current with
    since := event.time
    resources := event.resources
    replicaCount := event.replicaCount.getD current.replicaCount }

@[simp] theorem opened_since (event : AppLifecycleEvent) : (opened event).since = event.time := rfl

@[simp] theorem rebased_since (event : AppLifecycleEvent) (current : OpenInterval) :
    (rebased event current).since = event.time := rfl

/--
The segments of one app, from its events in order of time. `tail` says where a segment ends that
no event closes.
-/
def closedSegments (tail : OpenInterval → Time) :
    Option OpenInterval → List AppLifecycleEvent → List Segment
  | none, [] => []
  | some current, [] => [⟨current, tail current⟩]
  | none, event :: rest =>
    if event.type = .installed then closedSegments tail (some (opened event)) rest
    else closedSegments tail none rest
  | some current, event :: rest =>
    if event.type = .installed then closedSegments tail (some current) rest
    else if rebasesInterval event.type then
      ⟨current, event.time⟩ :: closedSegments tail (some (rebased event current)) rest
    else ⟨current, event.time⟩ :: closedSegments tail none rest

/-- The removal time of a REMOVED record; a later record of the same id overrides an earlier. -/
def removedAt? (apps : List MasterApp) (appId : String) : Option Time :=
  ((apps.filter fun app ↦ app.state == .removed && app.appId == appId).getLast?).map (·.updatedAt)

def segmentTail (accountingEnd : Time) (removedAt : Option Time) (current : OpenInterval) : Time :=
  match removedAt with
  | none => accountingEnd
  | some removedAt => min accountingEnd (max current.since removedAt)

structure Bill where
  installedMs : Int := 0
  maxMemoryMb : Nat := 0
  maxCpus : Rat := 0
  maxTmpSizeMb : Option Nat := none
  maxReplicaCount : Nat := 0
  storageGbDay : Rat := 0

/-- A segment counts with its part inside the day. -/
def addSegment (start accountingEnd : Time) (bill : Bill) (segment : Segment) : Bill :=
  let segStart := max start segment.since
  let segEnd := min accountingEnd segment.endAt
  if segEnd ≤ segStart then bill
  else
    let ms := segEnd - segStart
    { installedMs := bill.installedMs + ms
      maxMemoryMb := max bill.maxMemoryMb segment.resources.memoryMb
      maxCpus := max bill.maxCpus segment.resources.cpus
      maxTmpSizeMb := some (max (bill.maxTmpSizeMb.getD 0) segment.resources.tmpSizeMb)
      maxReplicaCount := max bill.maxReplicaCount segment.replicaCount
      storageGbDay := bill.storageGbDay +
        (segment.storageBytes.getD 0 : Rat) / gib * ((ms : Rat) / dayMs) }

def billOf (start accountingEnd : Time) (segments : List Segment) : Bill :=
  segments.foldl (addSegment start accountingEnd) {}

def Bill.onRow (bill : Bill) (row : PerAppRow) : PerAppRow :=
  { row with
    installedDayFraction := (bill.installedMs : Rat) / dayMs
    resources := ⟨bill.maxMemoryMb, bill.maxCpus, bill.maxTmpSizeMb⟩
    replicaCount := bill.maxReplicaCount
    storageGbDay := bill.storageGbDay }

/-- The billing events of one app, in order of time. -/
def billingEvents (events : List AppLifecycleEvent) (appId : String) : List AppLifecycleEvent :=
  sortByTime (·.time) (events.filter fun event ↦
    billingInterval event.type && event.appId == appId)

/-- The apps that have billing events, in the order of their first one. -/
def billedApps (events : List AppLifecycleEvent) : List String :=
  ((events.filter fun event ↦ billingInterval event.type).map (·.appId)).eraseDups

def billApp (start accountingEnd : Time) (events : List AppLifecycleEvent) (apps : List MasterApp)
    (rows : Rows) (appId : String) : Rows :=
  let bill := billOf start accountingEnd
    (closedSegments (segmentTail accountingEnd (removedAt? apps appId)) none
      (billingEvents events appId))
  if bill.installedMs ≤ 0 then rows else withRow appId bill.onRow rows

/-! ## Apps from before billing events -/

/-- The removals of an app after its creation, by the events of its replicas. -/
def removalTimes (events : List AppLifecycleEvent) (app : MasterApp) : List Time :=
  (events.filter fun event ↦
    event.appId == app.appId && event.type == .removed && decide (app.createdAt < event.time)).map
    (·.time)

def everStarted (events : List AppLifecycleEvent) (app : MasterApp) : Bool :=
  events.any fun event ↦ event.appId == app.appId && event.type == .started

def legacyOnRow (app : MasterApp) (ms : Int) (row : PerAppRow) : PerAppRow :=
  { row with
    installedDayFraction := (ms : Rat) / dayMs
    resources := ⟨app.resources.memoryMb, app.resources.cpus, some app.resources.tmpSizeMb⟩
    replicaCount := max app.replicas.length 1
    storageGbDay :=
      if 0 < app.storageBytes then (app.storageBytes : Rat) / gib * ((ms : Rat) / dayMs)
      else row.storageGbDay }

def billLegacy (start accountingEnd : Time) (events : List AppLifecycleEvent)
    (apps : List MasterApp) (rows : Rows) (app : MasterApp) : Rows :=
  if (billedApps events).contains app.appId then rows
  else if !everStarted events app then rows
  else
    let removedAt := (removalTimes events app).min?.or (removedAt? apps app.appId)
    let storageStart := max start app.createdAt
    let storageEnd := min accountingEnd (removedAt.getD accountingEnd)
    if storageEnd ≤ storageStart then rows
    else withRow app.appId (legacyOnRow app (storageEnd - storageStart)) rows

/-! ## The day -/

structure AppUsageDaily where
  workspaceId : String
  date : Time
  ramGbHours : Rat
  cpuHours : Rat
  storageGbDay : Rat
  perApp : Rows

def accountingEndOf (date asOf : Time) : Time :=
  min (utcDay date + dayMs) (max (utcDay date) asOf)

/-- The rows of all apps, before they are put in the order of their ids. -/
def dayRows (date asOf : Time) (events : List AppLifecycleEvent) (apps : List MasterApp) : Rows :=
  let start := utcDay date
  let accountingEnd := accountingEndOf date asOf
  apps.foldl (billLegacy start accountingEnd events apps)
    ((billedApps events).foldl (billApp start accountingEnd events apps)
      (computeRows start accountingEnd events))

/-- `localeCompare` says whether one id comes no later than another. -/
def aggregateWorkspaceDay (localeCompare : String → String → Bool) (workspaceId : String)
    (date asOf : Time) (events : List AppLifecycleEvent) (apps : List MasterApp) : AppUsageDaily :=
  let breakdown := (dayRows date asOf events apps).insertionSort fun a b ↦
    localeCompare a.appId b.appId = true
  { workspaceId
    date := utcDay date
    ramGbHours := (breakdown.map (·.ramGbHours)).sum
    cpuHours := (breakdown.map (·.cpuHours)).sum
    storageGbDay := (breakdown.map (·.storageGbDay)).sum
    perApp := breakdown }

/-- What the day bills the app for, as a share of the day. -/
def installedFraction (usage : AppUsageDaily) (appId : String) : Rat :=
  (rowOf usage.perApp appId).elim 0 (·.installedDayFraction)

end Usage

end PrivosCluster
