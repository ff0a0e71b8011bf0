import PrivosCluster.Agent.RecoveryRaces

/-!
# Boot recovery and operator stops

Recovery runs beside any number of starts, stops and removals. A container that is recorded as
stopped when all of them are done does not run, and the next recovery in the same boot starts
nothing.
-/

namespace PrivosCluster.Agent

open AsyncProgram DesiredStateRecovery

variable {κ : Type} {config : AgentConfig} {bootId dockerId : String}

/-- An operation on a container that may run beside recovery. -/
inductive ContainerOperation where
  | start (dockerId : String)
  | stop (dockerId : String)
  | remove (dockerId : String) (force : Bool)

def ContainerOperation.run (store : DesiredStateStore) : ContainerOperation → NodeProgram Unit
  | .start dockerId => ContainerManager.startContainer store dockerId
  | .stop dockerId => ContainerManager.stopContainer store dockerId
  | .remove dockerId force => ContainerManager.removeContainer store dockerId force

/-- The store of the agent. -/
def desiredState (config : AgentConfig) : DesiredStateStore := ⟨config.fleetMode⟩

/-- One recovery, and any operations. -/
def recoveryThreads (config : AgentConfig) (operations : κ → ContainerOperation) :
    Option κ → NodeProgram Unit
  | none => do
    let _ ← recoverDesiredState config (desiredState config)
    .pure ()
  | some k => (operations k).run (desiredState config)

/-! ## The debts of the threads -/

variable {store : DesiredStateStore} {i : Option κ}

section Debts

variable {operations : κ → ContainerOperation}

theorem solvent_operation (henabled : store.enabled) (operation : ContainerOperation) :
    Solvent (recoveryDebts bootId) (operation.run store) := by
  cases operation with
  | start dockerId => exact solvent_startContainer henabled
  | stop dockerId => exact solvent_stopContainer henabled
  | remove dockerId force => exact solvent_removeContainer

theorem solvent_recoveryThreads (hfleet : config.fleetMode) (i : Option κ) :
    Solvent (recoveryDebts bootId) (recoveryThreads config operations i) := by
  have henabled : (desiredState config).enabled := hfleet
  cases i with
  | none => exact (solvent_recoverDesiredState henabled).bind fun _ ↦ trivial
  | some k => exact solvent_operation henabled (operations k)

/-- A stop of a container pays what was due of it before, too. -/
theorem owes_stopContainer (henabled : (desiredState config).enabled) :
    Owes (recoveryDebts bootId) (.stop dockerId)
      (ContainerManager.stopContainer (desiredState config) dockerId) := by
  rw [ContainerManager.stopContainer, mark_enabled henabled]
  exact Returns.owes (Returns.ask (not_answers_error (fun _ _ ↦ rfl) (by simp))) fun _ ↦ owes_stop

/-- What is counted: the stamp, and the containers whose earlier stops are done or done again. -/
def Counted (operations : κ → ContainerOperation) (node : Node) : RecoveryDebt → Prop
  | .stop dockerId => RunsStopped dockerId node → ∃ k, operations k = .stop dockerId
  | .stamp => True

theorem balanced_recoveryThreads [DecidableEq κ] (hfleet : config.fleetMode) (node : Node) :
    (recoveryDebts node.bootId).Balanced (fun node' ↦ node'.bootId = node.bootId)
      (fun d node' ↦ Counted operations node d ∧ d.Due node')
      ⟨recoveryThreads config operations, node⟩ where
  invariant := rfl
  complies i := Complies.of_allows (fun _ ↦ trivial) _
  solvent := solvent_recoveryThreads hfleet
  owed d hdue := by
    obtain ⟨hcounted, hdue⟩ := hdue
    have henabled : (desiredState config).enabled := hfleet
    cases d with
    | stop dockerId =>
      obtain ⟨k, hk⟩ := hcounted hdue
      refine ⟨some k, ?_⟩
      have hthread : recoveryThreads config operations (some k) =
          ContainerManager.stopContainer (desiredState config) dockerId :=
        congrArg (ContainerOperation.run (desiredState config)) hk
      have howes := @owes_stopContainer config node.bootId dockerId henabled
      rw [← hthread] at howes
      exact howes
    | stamp => exact ⟨none, (owes_recoverDesiredState henabled).bind⟩

end Debts

/-! ## The next recovery in the same boot -/

/-- The answers of a node whose boot is stamped. -/
def bootedTerms (bootId : String) (allows : NodeCall → Prop) : Terms nodeSignature AgentError where
  allows := allows
  answers c answer := ∃ x node, Stamped node ∧ node.bootId = bootId ∧
    answer = (respondNode c x node).1
  answerable _ := ⟨_, {}, ⟨∅, .stored ⟨bootId, ∅⟩, bootId, [], ∅, ∅, false, 0⟩, rfl, rfl, rfl⟩

/-- Recovery starts nothing and stamps the boot again; operations stamp nothing. -/
def bootedCalls (bootId : String) (i : Option κ) (c : NodeCall) : Prop :=
  (i = none → ∀ dockerId, c ≠ NodeCall.start dockerId) ∧
    ∀ runningIds other, c = NodeCall.seedAndStamp runningIds other → other = bootId

section Booted

theorem bootedCalls_quiet {c : NodeCall} (hstart : ∀ dockerId, c ≠ .start dockerId)
    (hstamp : ∀ runningIds other, c ≠ .seedAndStamp runningIds other) : bootedCalls bootId i c :=
  ⟨fun _ ↦ hstart, fun runningIds other h ↦ absurd h (hstamp runningIds other)⟩

theorem bootedCalls_stamp (runningIds : List String) :
    bootedCalls bootId i (.seedAndStamp runningIds bootId) :=
  ⟨by simp, fun _ _ h ↦ (NodeCall.seedAndStamp.inj h).2.symm⟩

variable {allows : NodeCall → Prop}

theorem complies_await {c : NodeCall} (h : allows c) :
    Complies (bootedTerms bootId allows) (fun _ ↦ True) (await c) :=
  Complies.await h fun _ _ ↦ trivial

/-- What is read of the boot once it is stamped: the host's, and not a new one. -/
theorem not_isNewBoot {recorded : Option DesiredStateFile}
    (h : (bootedTerms bootId allows).answers NodeCall.readDesired (.ok recorded)) :
    isNewBoot recorded bootId = false := by
  obtain ⟨x, node, hstamped, hboot, hanswer⟩ := h
  have hcases : recorded = none ∨ recorded = node.desired.load.1 := by
    unfold respondNode at hanswer
    cases hfailure : x.failure with
    | none =>
      rw [hfailure] at hanswer
      exact .inr (Except.ok.inj hanswer)
    | some e =>
      rw [hfailure] at hanswer
      exact .inl (Except.ok.inj hanswer)
  obtain rfl | rfl := hcases
  · rfl
  · cases hdesired : node.desired with
    | missing => rfl
    | corrupt => rfl
    | stored state =>
      have hstate : state.bootId = node.bootId := by
        rw [Stamped, hdesired] at hstamped
        exact hstamped
      simp [DesiredStorage.load, isNewBoot, hstate, hboot]

theorem eq_of_answers_booted {currentBoot : String}
    (h : (bootedTerms bootId allows).answers NodeCall.readBootId (.ok currentBoot)) :
    currentBoot = bootId := by
  obtain ⟨x, node, -, hboot, hanswer⟩ := h
  unfold respondNode at hanswer
  cases hfailure : x.failure with
  | none =>
    rw [hfailure] at hanswer
    exact (Except.ok.inj hanswer).trans hboot
  | some e =>
    rw [hfailure] at hanswer
    cases hanswer

theorem complies_read (henabled : store.enabled) (h : allows .readDesired) :
    Complies (bootedTerms bootId allows) (fun recorded ↦ isNewBoot recorded bootId = false)
      store.read := by
  rw [read_enabled henabled]
  exact Complies.await h fun _ hrecorded ↦ not_isNewBoot hrecorded

/-- In a boot that is stamped, recovery only looks and stamps again. -/
theorem complies_recoverDesiredState (hfleet : config.fleetMode) :
    Complies (bootedTerms bootId (bootedCalls bootId (none : Option κ))) (fun _ ↦ True)
      (recoverDesiredState config (desiredState config)) := by
  have henabled : (desiredState config).enabled := hfleet
  unfold recoverDesiredState
  rw [if_pos henabled]
  apply Meets.tryCatch
  · apply Meets.bind (R := (· = bootId))
    · apply Complies.await (bootedCalls_quiet (by simp) (by simp))
      exact fun _ hboot ↦ eq_of_answers_booted hboot
    intro currentBoot hboot
    subst hboot
    apply Meets.bind (complies_read henabled (bootedCalls_quiet (by simp) (by simp)))
    intro recorded hrecorded
    apply Meets.seq (complies_await (bootedCalls_quiet (by simp) (by simp)))
    intro managed
    have hnone : recoverCandidates config (desiredState config) recorded currentBoot = .pure [] := by
      unfold recoverCandidates
      rw [hrecorded]
      rfl
    rw [hnone]
    apply Meets.seq (Meets.onlyIf fun _ ↦ complies_await (bootedCalls_stamp _))
    exact fun _ ↦ trivial
  · exact fun _ ↦ trivial

theorem complies_operation
    (h : ∀ c, (∀ runningIds other, c ≠ NodeCall.seedAndStamp runningIds other) → allows c)
    (operation : ContainerOperation) :
    Complies (bootedTerms bootId allows) (fun _ ↦ True) (operation.run store) := by
  cases operation with
  | start dockerId =>
    apply Meets.seq (Meets.tryCatch (complies_await (h _ (by simp))) ?_)
    · exact fun _ ↦ Meets.onlyIf fun _ ↦ complies_await (h _ (by simp))
    · intro e
      split <;> trivial
  | stop dockerId =>
    apply Meets.seq (Meets.onlyIf fun _ ↦ complies_await (h _ (by simp)))
    intro _
    apply Meets.tryCatch (complies_await (h _ (by simp)))
    intro e
    split
    · trivial
    · split <;> trivial
  | remove dockerId force =>
    apply Meets.seq (Meets.tryCatch (complies_await (h _ (by simp))) ?_)
    · exact fun _ ↦ Meets.onlyIf fun _ ↦ complies_await (h _ (by simp))
    · intro e
      split <;> trivial

theorem complies_recoveryThreads (hfleet : config.fleetMode)
    (operations : κ → ContainerOperation) (i : Option κ) :
    Complies (bootedTerms bootId (bootedCalls bootId i)) (fun _ ↦ True)
      (recoveryThreads config operations i) := by
  cases i with
  | none => exact (complies_recoverDesiredState hfleet).seq fun _ ↦ trivial
  | some k =>
    apply complies_operation
    intro c hc
    exact ⟨by simp, fun runningIds other h ↦ absurd h (hc runningIds other)⟩

/-- Among any operations, recovery starts nothing in a boot that is stamped. -/
theorem starts_nothing [DecidableEq κ] (hfleet : config.fleetMode) {law : NodeLaw}
    {operations : κ → ContainerOperation} {node : Node} (hstamped : Stamped node)
    {events : List (Event nodeSignature NodeChoice (Option κ))}
    {last : Pool nodeSignature AgentError Node (Option κ)}
    (run : Pool.Run (nodeMachine law) ⟨recoveryThreads config operations, node⟩ events last) :
    ∀ e ∈ events, e.thread = none → ∀ dockerId, e.call ≠ NodeCall.start dockerId := by
  have hcomplies := run.complies (t := fun i ↦ bootedTerms node.bootId (bootedCalls node.bootId i))
    (I := fun node' ↦ Stamped node' ∧ node'.bootId = node.bootId)
    (fun i c x node' hallows _ hI ↦
      ⟨⟨stamped_respondNode hI.1 fun runningIds other hc ↦ (hallows.2 _ _ hc).trans hI.2.symm,
          bootId_respondNode.trans hI.2⟩, x, node', hI.1, hI.2, rfl⟩)
    (complies_recoveryThreads hfleet operations) ⟨hstamped, rfl⟩
  exact fun e he hnone ↦ (hcomplies.1 e he).1 hnone

end Booted

/-! ## Stops outlast recovery -/

/--
Recovery runs beside any starts, stops and removals, and nothing fails but perhaps a start. When
all are done, no container whose stop is recorded runs, unless it did before and was not stopped
meanwhile; and a second recovery in the same boot, again beside any operations, starts nothing.
-/
theorem stops_outlast_recovery {κ' : Type} [DecidableEq κ] [DecidableEq κ']
    (hfleet : config.fleetMode = true) {operations : κ → ContainerOperation} {node : Node}
    {events : List (Event nodeSignature NodeChoice (Option κ))}
    {done : Pool nodeSignature AgentError Node (Option κ)}
    (run : Pool.Run (nodeMachine ioSucceeds) ⟨recoveryThreads config operations, node⟩ events done)
    (hdone : ∀ i, ∃ r, done.threads i = Program.ofExcept r) :
    (∀ dockerId, (RunsStopped dockerId node → ∃ k, operations k = .stop dockerId) →
      ¬ RunsStopped dockerId done.state) ∧
    ∀ (operations' : κ' → ContainerOperation) (node' : Node), node'.desired = done.state.desired →
      node'.bootId = done.state.bootId →
      ∀ events' last, Pool.Run (nodeMachine ioSucceeds)
          ⟨recoveryThreads config operations', node'⟩ events' last →
        ∀ e ∈ events', e.thread = none → ∀ dockerId, e.call ≠ NodeCall.start dockerId := by
  have hbooked := (recoveryDebts_booked node.bootId).restrict (Counted operations node)
  obtain ⟨-, hbalanced⟩ := (balanced_recoveryThreads hfleet node).run hbooked run
  have hnothing := hbalanced.nothing_due hdone
  refine ⟨fun dockerId hcounted hruns ↦ hnothing (.stop dockerId) ⟨hcounted, hruns⟩, ?_⟩
  intro operations' node' hdesired hboot events' last run'
  have hstamped : Stamped done.state := by
    by_contra hstamped
    exact hnothing .stamp ⟨trivial, hstamped⟩
  apply starts_nothing hfleet _ run'
  rw [Stamped, hdesired, hboot]
  exact hstamped

/-! ## A stop while recovery starts the container -/

def NodeCall.isStart : NodeCall → Bool
  | .start _ => true
  | _ => false

def decideIoSucceeds (c : NodeCall) (x : NodeChoice) (node : Node) :
    Decidable (ioSucceeds c x node) :=
  decidable_of_iff (c.isStart = true ∨ x.failure = none) <| by
    cases c <;> simp [ioSucceeds, NodeCall.isStart]

instance (c : nodeSignature.Call) (x : NodeChoice) (node : Node) :
    Decidable ((nodeMachine ioSucceeds).permits c x node) :=
  decideIoSucceeds c x node

/-- A node after a reboot, with one container that ran before it. -/
def rebootedNode : Node where
  containers := AList.insert "app" { status := .exited } ∅
  desired := .stored ⟨"boot-1", AList.insert "app" .running ∅⟩
  bootId := "boot-2"
  queue := []
  healthState := ∅
  oomState := ∅
  busy := false
  clock := 0

def fleetAgent : AgentConfig := ⟨true, none, "privos"⟩

def recoveryAndStop : Pool nodeSignature AgentError Node (Option Unit) :=
  ⟨recoveryThreads fleetAgent fun _ : Unit ↦ .stop "app", rebootedNode⟩

/-- The stop is recorded and carried out after recovery has looked at the record. -/
def stoppedDuringRecovery : List (Event nodeSignature NodeChoice (Option Unit)) ×
    Pool nodeSignature AgentError Node (Option Unit) :=
  Pool.play (nodeMachine ioSucceeds) (fun _ _ ↦ {})
    (List.replicate 6 none ++ List.replicate 2 (some ()) ++ List.replicate 6 none) recoveryAndStop

theorem stops_outlast_recovery_stoppedDuringRecovery :
    ¬ RunsStopped "app" stoppedDuringRecovery.2.state := by
  apply (@stops_outlast_recovery Unit fleetAgent Unit _ _ rfl _ _ _ _ (Pool.run_play _ _ _) ?_).1
  · exact fun _ ↦ ⟨(), rfl⟩
  · intro i
    cases i with
    | none => exact ⟨.ok (), by rfl⟩
    | some i => exact ⟨.ok (), by rfl⟩

end PrivosCluster.Agent
