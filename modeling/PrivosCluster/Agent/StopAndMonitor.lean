import PrivosCluster.AsyncProgram.RelyGuarantee
import PrivosCluster.Agent.HealthMonitor
import PrivosCluster.Agent.RecoveryRaces

/-!
# A stop among ticks of the health monitor

A tick that lists the containers after a stop leaves the stopped one alone. A tick that listed
them before may restart it afterwards: it does not look at the record of the stop.
-/

namespace PrivosCluster.Agent

open AsyncProgram HealthMonitor List Containers

variable {κ : Type} {config : AgentConfig} {store : DesiredStateStore} {dockerId : String}

/-- A tick of the health monitor, or a stop. -/
inductive MonitorTask where
  | tick
  | stop (containerId : String) (workspaceId : Option String)

def MonitorTask.run (config : AgentConfig) (store : DesiredStateStore) :
    MonitorTask → NodeProgram Unit
  | .tick => HealthMonitor.tick
  | .stop containerId workspaceId => do
    let _ ← LifecycleService.stopContainer config store containerId workspaceId
    .pure ()

/-- The calls to Docker succeed; probes may fail, and containers may end on their own. -/
def dockerSucceeds : NodeLaw
  | .listContainers _, x, _ => x.failure = none
  | .inspect _, x, _ => x.failure = none
  | .stop _, x, _ => x.failure = none
  | .restart _, x, _ => x.failure = none
  | _, _, _ => True

def IsListing (c : NodeCall) : Prop := ∃ labels, c = NodeCall.listContainers labels

def IsDown (dockerId : String) (node : Node) : Prop := ¬ node.containers.isUp dockerId = true

/-! ## What a listing says -/

/-- The container is not taken for a running one. -/
def NotRunning (dockerId : String) (c : Container) : Prop :=
  c.dockerContainerId = dockerId → c.state ≠ .running

theorem mapState_ne_running {status : DockerStatus} (h : status.isUp = false) :
    mapState status ≠ .running := by
  cases status <;> simp_all [mapState, DockerStatus.isUp]

variable {node : Node} {x : NodeChoice}

/-- A container that is down is not listed as running. -/
theorem notRunning_of_listed {labels : List (String × String)}
    {list : List (String × DockerContainer)} (hdown : IsDown dockerId node)
    (hlist : (respondNode (.listContainers labels) x node).1 = .ok list) :
    ∀ entry ∈ list, entry.1 = dockerId → mapState entry.2.status ≠ .running := by
  have hserved : list = (node.afterExits x.exits).containers.matching labels := by
    unfold respondNode at hlist
    cases hfailure : x.failure with
    | none =>
      rw [hfailure] at hlist
      exact (Except.ok.inj hlist).symm
    | some e =>
      rw [hfailure] at hlist
      cases hlist
  intro entry hentry hid
  rw [hserved] at hentry
  obtain ⟨found, hfound, rfl⟩ := List.mem_map.mp (mem_filter.mp hentry).1
  have hlookup : (node.afterExits x.exits).containers.lookup found.1 = some found.2 :=
    AList.mem_lookup_iff.mpr hfound
  apply mapState_ne_running
  by_contra hup
  rw [Bool.not_eq_false] at hup
  apply hdown
  apply @Node.isUp_afterExits x.exits
  rw [← hid, Containers.isUp, hlookup]
  exact hup

/-! ## What the tasks call -/

/-- A call that does not bring the container up. -/
def SparesContainer (dockerId : String) (c : NodeCall) : Prop :=
  c ≠ NodeCall.start dockerId ∧ c ≠ NodeCall.restart dockerId

variable {c : NodeCall} {containers : Containers} {other : String}

theorem isDown_respondNode (hc : SparesContainer dockerId c) (hdown : IsDown dockerId node) :
    IsDown dockerId (respondNode c x node).2 := by
  intro hup
  obtain hup | ⟨hstart, -⟩ | hrestart := isUp_respondNode hup
  · exact hdown hup
  · exact hc.1 hstart
  · exact hc.2 hrestart

section Asks

variable {P : NodeCall → Prop} {labels : List (String × String)}

/-- The calls of a probe. -/
structure Probing (P : NodeCall → Prop) : Prop where
  fetch : ∀ url, P (.fetch url)
  now : P .now
  getHealth : ∀ id, P (.getHealth id)
  setHealth : ∀ id check, P (.setHealth id check)

/-- The calls that a tick and a stop make besides those that stop and restart a container. -/
structure Plain (P : NodeCall → Prop) extends Probing P where
  list : ∀ labels, P (.listContainers labels)
  inspect : ∀ dockerId, P (.inspect dockerId)
  turn : P .turn
  enterTick : P .enterTick
  leaveTick : P .leaveTick
  getOom : ∀ id, P (.getOom id)
  setOom : ∀ id time, P (.setOom id time)
  prune : ∀ liveIds, P (.prune liveIds)
  mark : ∀ dockerId, P (.markDesired dockerId .stopped)

theorem asks_await (h : P c) : Asks P (await c) := Asks.ask h

theorem asks_listEntry (hplain : Plain P) (entry : String × DockerContainer) :
    Asks P (listEntry entry) :=
  (asks_await (hplain.getHealth _)).bind fun _ ↦ trivial

theorem asks_inspectManaged (hplain : Plain P) : Asks P (inspectManaged labels) := by
  apply Asks.bind (asks_await (hplain.list labels))
  intro list
  apply Asks.bind
  · exact Asks.mapEach fun entry _ ↦ asks_listEntry hplain entry
  · exact fun _ ↦ trivial

theorem asks_getById (hplain : Plain P) (id : String) (workspaceId : Option String) :
    Asks P (getById config id workspaceId) := by
  apply Asks.bind Asks.throwIf
  intro _
  exact (asks_inspectManaged hplain).bind fun _ ↦ trivial

theorem asks_stopContainer (hplain : Plain P) (hstop : ∀ dockerId, P (.stop dockerId))
    (containerId : String) (workspaceId : Option String) :
    Asks P (LifecycleService.stopContainer config store containerId workspaceId) := by
  apply Asks.bind
  · apply (asks_getById hplain containerId workspaceId).bind
    intro found
    cases found <;> trivial
  intro c
  apply Asks.bind
  · apply Asks.bind (Asks.onlyIf (asks_await (hplain.mark _)))
    intro _
    apply Asks.tryCatch (asks_await (hstop _))
    intro e
    split
    · trivial
    · split <;> trivial
  intro _
  apply (asks_getById hplain containerId workspaceId).bind
  intro found
  cases found <;> trivial

theorem asks_fetch (hprobing : Probing P) (url : String) : Asks P (fetch url) :=
  asks_await (hprobing.fetch url)

theorem asks_probe (hprobing : Probing P) (internalUrl healthPath : String) :
    Asks P (probe internalUrl healthPath) := by
  apply (asks_fetch hprobing _).settle.bind
  intro response
  cases response with
  | error e => trivial
  | ok status =>
    dsimp only
    split
    · trivial
    · split
      · trivial
      · apply (asks_fetch hprobing _).settle.bind
        intro fallback
        cases fallback <;> trivial

theorem asks_checkOne (hprobing : Probing P) {c : Container}
    (hrestart : P (.restart c.dockerContainerId)) : Asks P (checkOne c) := by
  apply Asks.bind (asks_await (hprobing.getHealth _))
  intro health
  apply (asks_probe hprobing _ _).bind
  intro healthy
  apply Asks.bind (asks_await hprobing.now)
  intro now
  apply Asks.bind (asks_await (hprobing.setHealth _ _))
  intro _
  apply Asks.onlyIf
  apply Asks.tryCatch (asks_await hrestart)
  intro e
  exact Asks.bind (asks_await hprobing.now) fun now ↦ asks_await (hprobing.setHealth _ _)

theorem asks_captureOomSignal {c : Container} (hget : P (.getOom c.id))
    (hinspect : P (.inspect c.dockerContainerId)) (hnow : P .now)
    (hset : ∀ time, P (.setOom c.id time)) : Asks P (captureOomSignal c) := by
  apply Asks.bind (asks_await hget)
  intro known
  apply Asks.onlyIf
  apply Asks.tryCatch
  · apply Asks.bind (asks_await hinspect)
    intro info
    apply Asks.onlyIf
    split
    · exact asks_await (hset _)
    · exact Asks.bind (asks_await hnow) fun now ↦ asks_await (hset now)
  · exact fun _ ↦ trivial

/-- What a tick does once it has its listing. -/
theorem asks_afterListing (hplain : Plain P) {containers : List Container}
    (hrestart : ∀ c ∈ containers, c.state = .running → P (.restart c.dockerContainerId)) :
    Asks P (do
      await (.prune (containers.map (·.id)))
      let _ ← Program.allSettled turns ((containers.filter (·.state = .running)).map checkOne)
      let _ ← Program.allSettled turns
        ((containers.filter (·.state = .stopped)).map captureOomSignal)
      .pure () : NodeProgram Unit) := by
  apply Asks.bind (asks_await (hplain.prune _))
  intro _
  apply Asks.bind
  · apply Asks.allSettled hplain.turn
    intro task htask
    obtain ⟨c, hc, rfl⟩ := List.mem_map.mp htask
    obtain ⟨hmem, hrunning⟩ := mem_filter.mp hc
    exact asks_checkOne hplain.toProbing (hrestart c hmem (of_decide_eq_true hrunning))
  intro _
  apply Asks.bind
  · apply Asks.allSettled hplain.turn
    intro task htask
    obtain ⟨c, -, rfl⟩ := List.mem_map.mp htask
    exact asks_captureOomSignal (hplain.getOom _) (hplain.inspect _) hplain.now (hplain.setOom _)
  · exact fun _ ↦ trivial

theorem asks_tick (hplain : Plain P) (hrestart : ∀ dockerId, P (.restart dockerId)) :
    Asks P HealthMonitor.tick := by
  apply Asks.bind (asks_await hplain.enterTick)
  intro (entered : Bool)
  apply Asks.onlyIf
  apply Asks.finallyDo
  · apply Asks.tryCatch
    · apply Asks.bind (asks_inspectManaged hplain)
      intro containers
      exact asks_afterListing hplain fun c _ _ ↦ hrestart _
    · exact fun _ ↦ trivial
  · exact asks_await hplain.leaveTick

theorem asks_task (hplain : Plain P) (hrestart : ∀ dockerId, P (.restart dockerId))
    (hstop : ∀ dockerId, P (.stop dockerId)) (task : MonitorTask) :
    Asks P (task.run config store) := by
  cases task with
  | tick => exact asks_tick hplain hrestart
  | stop containerId workspaceId =>
    exact (asks_stopContainer hplain hstop containerId workspaceId).bind fun _ ↦ trivial

end Asks

/-! ## A tick that lists while the container is down -/

section Stale

theorem plain_spares : Plain (SparesContainer dockerId) := by
  constructor
  · constructor <;> simp [SparesContainer]
  all_goals simp [SparesContainer]

/-- The environment's choices are as the law has them. -/
abbrev monitorMachine : Machine nodeSignature AgentError Node NodeChoice :=
  (nodeMachine dockerSucceeds).restrict fun _ _ ↦ True

theorem meets_of_asks {α : Type} {p : NodeProgram α} (h : Asks (SparesContainer dockerId) p) :
    Meets monitorMachine (.inside IsListing (IsDown dockerId)) (fun _ ↦ True) p :=
  h.meets fun _ _ _ hc _ _ hdown ↦ isDown_respondNode hc hdown

theorem meets_inspectManaged (labels : List (String × String)) :
    Meets monitorMachine (.inside IsListing (IsDown dockerId))
      (fun containers ↦ ∀ c ∈ containers, NotRunning dockerId c) (inspectManaged labels) := by
  apply Meets.bind
    (R := fun list : List (String × DockerContainer) ↦ ∀ entry ∈ list, entry.1 = dockerId →
      mapState entry.2.status ≠ .running)
  · apply Meets.ask
    intro x node hassume _
    refine ⟨isDown_respondNode (plain_spares.list labels), fun list hlist ↦ ?_⟩
    exact notRunning_of_listed (hassume ⟨labels, rfl⟩) hlist
  intro list hlist
  apply Meets.bind (R := fun items : List ListedContainer ↦
    ∀ item ∈ items, NotRunning dockerId item.container)
  · apply Meets.mapEach
    intro entry hentry
    apply Meets.bind (meets_of_asks (asks_await (plain_spares.getHealth _)))
    intro health _
    exact hlist entry hentry
  · intro items hitems c hc
    obtain ⟨item, hitem, rfl⟩ := mem_pickActivePerId hc
    exact hitems item hitem

theorem meets_tick : Meets monitorMachine (.inside IsListing (IsDown dockerId)) (fun _ ↦ True)
    HealthMonitor.tick := by
  apply Meets.seq (meets_of_asks (asks_await plain_spares.enterTick))
  intro (entered : Bool)
  apply Meets.onlyIf
  intro _
  apply Meets.finallyDo
  · apply Meets.tryCatch
    · apply Meets.bind (meets_inspectManaged _)
      intro containers hcontainers
      apply meets_of_asks
      apply asks_afterListing plain_spares
      intro c hc hrunning
      refine ⟨by simp, fun hrestart ↦ ?_⟩
      exact hcontainers c hc (NodeCall.restart.inj hrestart) hrunning
    · exact fun _ ↦ trivial
  · exact meets_of_asks (asks_await plain_spares.leaveTick)

theorem meets_task (task : MonitorTask) : Meets monitorMachine
    (.inside IsListing (IsDown dockerId)) (fun _ ↦ True) (task.run config store) := by
  cases task with
  | tick => exact meets_tick
  | stop containerId workspaceId =>
    apply Meets.seq
    · apply meets_of_asks
      apply asks_stopContainer plain_spares
      simp [SparesContainer]
    · exact fun _ ↦ trivial

end Stale

/-! ## Up again -/

/-- A container stays up until it ends, is stopped or is removed. -/
theorem isUp_stays (hstop : c ≠ .stop dockerId) (hremove : ∀ force, c ≠ .remove dockerId force)
    (hexits : x.exits = []) (hup : node.containers.isUp dockerId) :
    (respondNode c x node).2.containers.isUp dockerId := by
  have hafter : node.afterExits x.exits = node := by rw [hexits]; rfl
  obtain heq | heq := @respondNode_cases c x node
  · rwa [heq, hafter]
  · rw [heq, hafter]
    cases c with
    | start other =>
      simp only [serve]
      split
      · exact hup
      next hother =>
        have hne : other ≠ dockerId := fun h ↦ hother (h ▸ hup)
        split
        · rwa [isUp_run hne]
        · exact hup
    | restart other =>
      simp only [serve]
      split
      next hmem =>
        obtain rfl | hne := eq_or_ne other dockerId
        · exact isUp_run_self hmem
        · rwa [isUp_run hne]
      · exact hup
    | stop other =>
      have hne : dockerId ≠ other := fun h ↦ hstop (by rw [h])
      simp only [serve]
      split
      · simp [isUp_exit, hup, hne]
      · split <;> exact hup
    | remove other force =>
      have hne : dockerId ≠ other := fun h ↦ hremove force (by rw [h])
      simp only [serve]
      split
      · exact hup
      · split
        · simp [isUp_erase, hup, hne]
        · exact hup
    | _ => exact hup

theorem mem_run : dockerId ∈ containers.run other ↔ dockerId ∈ containers := by
  unfold run
  cases hfound : containers.lookup other with
  | none => rfl
  | some container =>
    have hother : other ∈ containers := AList.lookup_isSome.mp (by simp [hfound])
    simp only [AList.mem_insert, or_iff_right_iff_imp]
    exact fun h ↦ h ▸ hother

theorem mem_exit {oomKilled : Bool} {time : Time} :
    dockerId ∈ containers.exit other oomKilled time ↔ dockerId ∈ containers := by
  unfold exit
  cases hfound : containers.lookup other with
  | none => rfl
  | some container =>
    have hother : other ∈ containers := AList.lookup_isSome.mp (by simp [hfound])
    dsimp only
    split
    · simp only [AList.mem_insert, or_iff_right_iff_imp]
      exact fun h ↦ h ▸ hother
    · rfl

theorem Node.mem_afterExits {exits : List (String × Bool)} :
    dockerId ∈ (node.afterExits exits).containers ↔ dockerId ∈ node.containers := by
  obtain ⟨containers, desired, bootId, queue, healthState, oomState, busy, clock⟩ := node
  induction exits generalizing containers with
  | nil => rfl
  | cons e exits ih => exact (ih _).trans mem_exit

/-- Containers are only lost by a removal. -/
theorem mem_respondNode (hremove : ∀ force, c ≠ .remove dockerId force)
    (hmem : dockerId ∈ node.containers) : dockerId ∈ (respondNode c x node).2.containers := by
  have hafter : dockerId ∈ (node.afterExits x.exits).containers := Node.mem_afterExits.mpr hmem
  obtain heq | heq := @respondNode_cases c x node
  · rwa [heq]
  · rw [heq]
    cases c with
    | start other | restart other =>
      simp only [serve]
      split
      · first | exact hafter | exact mem_run.mpr hafter
      · first | exact hafter | (split <;> first | exact mem_run.mpr hafter | exact hafter)
    | stop other =>
      simp only [serve]
      split
      · exact mem_exit.mpr hafter
      · split <;> exact hafter
    | remove other force =>
      have hne : dockerId ≠ other := fun h ↦ hremove force (by rw [h])
      simp only [serve]
      split
      · exact hafter
      · split
        · exact AList.mem_erase.mpr ⟨hne, hafter⟩
        · exact hafter
    | _ => exact hafter

/-- A restart that succeeds brings a container up. -/
theorem isUp_restart (hfailure : x.failure = none) (hmem : dockerId ∈ node.containers) :
    (respondNode (.restart dockerId) x node).2.containers.isUp dockerId := by
  have hafter : dockerId ∈ (node.afterExits x.exits).containers := Node.mem_afterExits.mpr hmem
  rw [respondNode, hfailure]
  simp only [serve, if_pos hafter]
  exact isUp_run_self hafter

/-! ## Stops and restarts -/

section Theorem

variable [DecidableEq κ] {tasks : κ → MonitorTask} {node : Node} {i : κ} {x : NodeChoice}
  {before after : List (Event nodeSignature NodeChoice κ)}
  {stopped last : Pool nodeSignature AgentError Node κ}

def monitorPool (config : AgentConfig) (store : DesiredStateStore) (tasks : κ → MonitorTask)
    (node : Node) : Pool nodeSignature AgentError Node κ :=
  ⟨fun k ↦ (tasks k).run config store, node⟩

/-- A task restarts the container after the stop on a listing from before it. -/
def RestartsOnStaleListing (dockerId : String)
    (before after : List (Event nodeSignature NodeChoice κ)) : Prop :=
  ∃ e ∈ after, e.call = NodeCall.restart dockerId ∧
    ∃ e' ∈ before, e'.thread = e.thread ∧ IsListing e'.call

/-- A call that neither starts nor removes the container. -/
def OnlyRestarts (dockerId : String) (c : NodeCall) : Prop :=
  c ≠ NodeCall.start dockerId ∧ ∀ force, c ≠ NodeCall.remove dockerId force

theorem calls_of_tasks {pool : Pool nodeSignature AgentError Node κ}
    {events : List (Event nodeSignature NodeChoice κ)}
    (run : Pool.Run (nodeMachine dockerSucceeds) (monitorPool config store tasks node) events pool) :
    ∀ e ∈ events, OnlyRestarts dockerId e.call := by
  apply run.calls (P := fun _ ↦ OnlyRestarts dockerId)
  intro k
  have hplain : Plain (OnlyRestarts dockerId) := by
    constructor
    · constructor <;> simp [OnlyRestarts]
    all_goals simp [OnlyRestarts]
  exact asks_task hplain (by simp [OnlyRestarts]) (by simp [OnlyRestarts]) (tasks k)

theorem isDown_after_stop
    (run : Pool.Run (nodeMachine dockerSucceeds) (monitorPool config store tasks node)
      (before ++ [⟨i, .stop dockerId, x⟩]) stopped) : IsDown dockerId stopped.state := by
  obtain ⟨pool, -, hrun⟩ := run.split rfl
  obtain ⟨-, hx⟩ := hrun.single rfl
  exact not_isUp_stop hx

/--
After a stop the container is down for good, unless a tick that listed the containers before the
stop restarts it after the stop. If it does, and the container neither ends on its own nor is
stopped again, the container runs.
-/
theorem stop_outlasts_ticks
    (run₁ : Pool.Run (nodeMachine dockerSucceeds) (monitorPool config store tasks node)
      (before ++ [⟨i, .stop dockerId, x⟩]) stopped)
    (run₂ : Pool.Run (nodeMachine dockerSucceeds) stopped after last) :
    (¬ RestartsOnStaleListing dockerId before after → IsDown dockerId last.state) ∧
      (dockerId ∈ node.containers →
        (∀ e ∈ after, e.call ≠ NodeCall.stop dockerId ∧ e.choice.exits = []) →
          RestartsOnStaleListing dockerId before after → ¬ IsDown dockerId last.state) := by
  have hcalls := @calls_of_tasks _ _ _ dockerId _ _ _ _ _ (run₁.append run₂)
  constructor
  · intro hnone
    apply run₁.stays_inside (fun _ _ _ ↦ trivial) (fun k ↦ meets_task (tasks k))
      (isDown_after_stop run₁) run₂ (fun _ _ ↦ trivial)
    intro e he hlisted s hdown
    obtain ⟨e', he', hthread, hlisting⟩ := hlisted
    have hbefore : e' ∈ before := by
      rcases mem_append.mp he' with hbefore | hstop
      · exact hbefore
      · rw [mem_singleton.mp hstop] at hlisting
        obtain ⟨labels, hc⟩ := hlisting
        cases hc
    have hspares : SparesContainer dockerId e.call :=
      ⟨(hcalls e (mem_append_right _ he)).1,
        fun hrestart ↦ hnone ⟨e, he, hrestart, e', hbefore, hthread, hlisting⟩⟩
    exact isDown_respondNode hspares hdown
  · intro hmem hafter hrestarts hdown
    obtain ⟨e, he, hrestart, -⟩ := hrestarts
    obtain ⟨first, rest, rfl⟩ := append_of_mem he
    obtain ⟨pool₁, hfirst, hrest⟩ := run₂.split rfl
    obtain ⟨pool₂, hstep, hrest⟩ := Pool.Run.split hrest (singleton_append).symm
    -- the container is there when it is restarted, and it stays up from then on
    have hmem₁ : dockerId ∈ pool₁.state.containers := by
      apply (run₁.append hfirst).retains (I := fun s : Node ↦ dockerId ∈ s.containers) _ hmem
      intro e' he' s _ hs
      exact mem_respondNode (hcalls e' (by simp at he' ⊢; tauto)).2 hs
    have hup₂ : pool₂.state.containers.isUp dockerId = true := by
      obtain ⟨-, hx⟩ := hstep.single rfl
      obtain rfl := hrestart
      exact isUp_restart hx hmem₁
    apply hdown
    apply hrest.retains (I := fun s : Node ↦ s.containers.isUp dockerId = true) _ hup₂
    intro e' he' s _ hs
    have he' : e' ∈ first ++ e :: rest := by simp [he']
    exact isUp_stays (hafter e' he').1 (hcalls e' (mem_append_right _ he')).2
      (hafter e' he').2 hs

end Theorem

/-! ## A tick that restarts what was stopped -/

/-- Whether the law looks at a failure of the call. -/
def NodeCall.isDockerCall : NodeCall → Bool
  | .listContainers _ => true
  | .inspect _ => true
  | .stop _ => true
  | .restart _ => true
  | _ => false

def decideDockerSucceeds (c : NodeCall) (x : NodeChoice) (node : Node) :
    Decidable (dockerSucceeds c x node) :=
  decidable_of_iff (c.isDockerCall = true → x.failure = none) <| by
    cases c <;> simp [dockerSucceeds, NodeCall.isDockerCall]

instance (c : nodeSignature.Call) (x : NodeChoice) (node : Node) :
    Decidable ((nodeMachine dockerSucceeds).permits c x node) :=
  decideDockerSucceeds c x node

/-- An app whose last two probes have failed. -/
def ailingNode : Node where
  containers := AList.insert "d1" {
    status := .running
    labels := [("privos.managed", "true"), ("privos.id", "notes"), ("privos.workspace", "acme"),
      ("privos.port", "3000")]
    networks := [⟨"privos-ws-acme-apps", none, some "172.18.0.2"⟩] } ∅
  desired := .stored ⟨"boot-1", AList.insert "d1" .running ∅⟩
  bootId := "boot-1"
  queue := []
  healthState := AList.insert "notes" ⟨.unhealthy, 2, 0, some 0⟩ ∅
  oomState := ∅
  busy := false
  clock := 0

/-- The container that is being stopped does not answer the probe. -/
def refuseProbes (c : nodeSignature.Call) (_ : Node) : NodeChoice :=
  match (c : NodeCall) with
  | .fetch _ => { failure := some ⟨"fetch failed", none⟩ }
  | _ => {}

/-- The tick and the stop: the tick first when `true`. -/
def tickAndStop : Bool → MonitorTask
  | true => .tick
  | false => .stop "notes" (some "acme")

def tickAndStopPool : Pool nodeSignature AgentError Node Bool :=
  monitorPool ⟨true, none, "privos"⟩ ⟨true⟩ tickAndStop ailingNode

/-- The tick lists and begins its probe, and the stop is recorded and carried out meanwhile. -/
def stoppedDuringTick : List (Event nodeSignature NodeChoice Bool) ×
    Pool nodeSignature AgentError Node Bool :=
  Pool.play (nodeMachine dockerSucceeds) refuseProbes
    (List.replicate 5 true ++ List.replicate 4 false) tickAndStopPool

def restartedAfterStop : List (Event nodeSignature NodeChoice Bool) ×
    Pool nodeSignature AgentError Node Bool :=
  Pool.play (nodeMachine dockerSucceeds) refuseProbes
    (List.replicate 5 true ++ List.replicate 2 false) stoppedDuringTick.2

/-- The tick and the stop have finished, the stop is recorded, and the container runs. -/
theorem stopped_container_restarted :
    Pool.Run (nodeMachine dockerSucceeds) tickAndStopPool
        (stoppedDuringTick.1 ++ restartedAfterStop.1) restartedAfterStop.2 ∧
      (∃ before, stoppedDuringTick.1 = before ++ [⟨false, .stop "d1", {}⟩]) ∧
      (∀ i, ∃ r, restartedAfterStop.2.threads i = Program.ofExcept r) ∧
      restartedAfterStop.2.state.desired.record "d1" = some .stopped ∧
      ¬ IsDown "d1" restartedAfterStop.2.state := by
  refine ⟨(Pool.run_play _ _ _).append (Pool.run_play _ _ _), ⟨stoppedDuringTick.1.dropLast, rfl⟩, ?_,
    rfl, ?_⟩
  · intro i
    cases i with
    | true => exact ⟨.ok (), rfl⟩
    | false => exact ⟨.ok (), rfl⟩
  · exact not_not_intro rfl

/-- The stop is carried out, and the tick comes after it. -/
def stoppedBeforeTick : List (Event nodeSignature NodeChoice Bool) ×
    Pool nodeSignature AgentError Node Bool :=
  Pool.play (nodeMachine dockerSucceeds) refuseProbes (List.replicate 4 false) tickAndStopPool

theorem stop_outlasts_ticks_stoppedBeforeTick :
    IsDown "d1" (Pool.play (nodeMachine dockerSucceeds) refuseProbes (List.replicate 8 true)
      stoppedBeforeTick.2).2.state := by
  have run : Pool.Run (nodeMachine dockerSucceeds) tickAndStopPool
      (stoppedBeforeTick.1.dropLast ++ [⟨false, .stop "d1", {}⟩]) stoppedBeforeTick.2 :=
    Pool.run_play refuseProbes (replicate 4 false) tickAndStopPool
  apply (stop_outlasts_ticks run (Pool.run_play _ _ _)).1
  intro ⟨e, he, _, e', he', hthread, _⟩
  have hbefore : ∀ i ∈ stoppedBeforeTick.1.dropLast.map (·.thread), i = false := by decide
  have hafter : ∀ i ∈ (Pool.play (nodeMachine dockerSucceeds) refuseProbes (replicate 8 true)
      stoppedBeforeTick.2).1.map (·.thread), i = true := by decide
  have hfalse := hbefore _ (List.mem_map_of_mem he')
  have htrue := hafter _ (List.mem_map_of_mem he)
  rw [hthread, htrue] at hfalse
  cases hfalse

end PrivosCluster.Agent
