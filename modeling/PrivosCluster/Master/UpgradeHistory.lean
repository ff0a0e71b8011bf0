import PrivosCluster.Master.UpgradeAcknowledgement

/-!
# Upgrades one after the other

Any commands, in any order, against the record of one app, while the agents carry out what they
are asked and the database answers. Revision and digests are those of the last command that
touched a container. The authorization epoch moves with them as long as a newer command names the
stored epoch as the current one; the affinity check also lets the resulting epoch pass.
-/

namespace PrivosCluster

open AsyncProgram DocumentStore List Option

variable {succeeded : List Swapped}

namespace RuntimeSwap

/-- A bound container is stopped before its successor is created, and so the agent answers. -/
def Swaps : Call → Choice → Prop
  | .request ⟨_, _, .redeploy _ _⟩, x => ∃ response, x.answer = some response ∧
      response.status < 300 ∧ swapStrategy? response.body.swapStrategy = some .stopThenCreate
  | _, _ => True

/-- The agents carry out every redeploy, and the database answers. -/
def undisturbed : Law := fun c x _ ↦ Swaps c x ∧ (UpgradeRoute.IsStore c → x.fault = .none)

/-- One command and what it did. -/
structure UpgradeStep where
  command : ConsumedUpgradeCommand
  outcome : Except JsError Upgraded
  before : World
  after : World
  calls : List (Call × Choice)

inductive UpgradeRun (law : Law) (deps : DeploymentDeps) (workspaceId : String) (w : World) :
    List UpgradeStep → World → Prop where
  | start : UpgradeRun law deps workspaceId w [] w
  | step {steps : List UpgradeStep} {w' w'' : World} {command : ConsumedUpgradeCommand}
      {outcome : Except JsError Upgraded} {calls : List (Call × Choice)}
      (earlier : UpgradeRun law deps workspaceId w steps w')
      (execution : Executes (cluster law).traced
        (upgradeMcpV3 deps workspaceId command.toClusterUpgradeCommandPayloadV3) (w', [])
        (.ofExcept outcome) (w'', calls)) :
      UpgradeRun law deps workspaceId w (steps ++ [⟨command, outcome, w', w'', calls⟩]) w''

/-- The last command that touched a container. -/
def lastApplied (steps : List UpgradeStep) : Option ConsumedUpgradeCommand :=
  (steps.filter fun step ↦ step.calls.any (isRedeploy ·.1)).getLast?.map (·.command)

/-- Digests, revision and epoch: all as they were, or all of them others. -/
def ChangeTogether (app app' : MasterApp) : Prop :=
  app'.manifestDigest = app.manifestDigest ∧ app'.imageDigest = app.imageDigest ∧
      app'.mcpAppliedRevision = app.mcpAppliedRevision ∧
      app'.mcpAuthorizationEpoch = app.mcpAuthorizationEpoch ∨
    app'.manifestDigest ≠ app.manifestDigest ∧ app'.imageDigest ≠ app.imageDigest ∧
      app'.mcpAppliedRevision ≠ app.mcpAppliedRevision ∧
      app'.mcpAuthorizationEpoch ≠ app.mcpAuthorizationEpoch

/-- What is promised of a step after the earlier ones, for the record of one app. -/
structure InOrder (appId : String) (earlier : List UpgradeStep) (step : UpgradeStep) : Prop where
  advances : Redeployed step.calls → ∀ app app', step.before.app appId = some app →
    step.after.app appId = some app' →
    app.mcpAppliedRevision.getD 0 < app'.mcpAppliedRevision.getD 0
  replays : lastApplied earlier = some step.command →
    (∀ event ∈ step.calls, ∀ sent, event.1 ≠ .request sent) ∧ step.after.apps = step.before.apps
  together : ∀ app, step.before.app appId = some app →
    ∃ app', step.after.app appId = some app' ∧ ChangeTogether app app'
  rotates : Redeployed step.calls → ∀ app app', step.before.app appId = some app →
    step.after.app appId = some app' →
    ∃ epoch, app.mcpAuthorizationEpoch = some epoch ∧ app'.mcpAuthorizationEpoch = some (epoch + 1)

/-- A command that is newer than the record names the stored epoch as the current one. -/
def NamesStoredEpoch (appId : String) (step : UpgradeStep) : Prop :=
  ∀ app, step.before.app appId = some app → app.mcpAppliedRevision.getD 0 < step.command.revision →
    app.mcpAuthorizationEpoch = some step.command.authorizationEpoch

section

variable {law : Law} {deps : DeploymentDeps} {workspaceId : String}
  {command : ClusterUpgradeCommandPayloadV3} {swap : Swap} {w w' : World}
  {calls : List (Call × Choice)} {r : Except JsError Upgraded}

theorem redeploySucceeds_of_swaps {c : Call} {x : Choice} (h : Swaps c x) : RedeploySucceeds c x := by
  unfold RedeploySucceeds
  split
  · obtain ⟨response, hanswer, hstatus, hstrategy⟩ := h
    exact ⟨response, hanswer, hstatus, by rw [hstrategy]; rfl⟩
  · trivial

theorem Forwards.strategies {replicas : List AppReplica} {failure : Option (JsError × Option Bool)}
    (h : Forwards swap replicas calls succeeded failure)
    (hswaps : ∀ event ∈ calls, Swaps event.1 event.2) :
    ∀ entry ∈ succeeded, entry.swapStrategy = .stopThenCreate := by
  induction h with
  | done | rejected | refused | unreadable => exact fun _ h ↦ nomatch h
  | swapped answered accepted strategy _ ih =>
    intro entry hentry
    obtain rfl | hentry := mem_cons.mp hentry
    · obtain ⟨response, hanswer, -, hstrategy⟩ := hswaps _ mem_cons_self
      obtain rfl := some.inj (answered.symm.trans hanswer)
      exact some.inj (strategy.symm.trans hstrategy)
    · exact ih (fun event hevent ↦ hswaps event (mem_cons_of_mem _ hevent)) entry hentry

/-- Strategies that are all the same have a common one, unless there are none. -/
theorem commonStrategy_of_all (h : ∀ entry ∈ succeeded, entry.swapStrategy = .stopThenCreate)
    (hne : succeeded ≠ []) : commonStrategy succeeded = some .stopThenCreate := by
  cases succeeded with
  | nil => exact absurd rfl hne
  | cons first rest =>
    have hfirst := h first mem_cons_self
    have hrest : rest.all (fun entry ↦ entry.swapStrategy = first.swapStrategy) := by
      rw [List.all_eq_true]
      intro entry hentry
      rw [h entry (mem_cons_of_mem _ hentry), hfirst]
      rfl
    rw [commonStrategy, if_pos hrest, hfirst]

/-- An undisturbed swap of some replicas ends with the record written. -/
theorem Performs.written (h : Performs law swap w r w' calls) (hreplicas : swap.app.replicas ≠ [])
    (hswaps : ∀ event ∈ calls, Swaps event.1 event.2)
    (hanswers : ∀ event ∈ calls, UpgradeRoute.IsStore event.1 → event.2.fault = .none) :
    ∃ app, Written law swap w w' app := by
  cases h with
  | upgraded apps forwards concludes =>
    cases concludes with
    | upgraded _ _ persists =>
      cases persists with
      | written _ _ written => exact ⟨_, written.of_apps apps⟩
  | @reverted forward calls back succeeded failure _ _ _ _ apps forwards concludes =>
    have hforward : ∀ event ∈ forward, Swaps event.1 event.2 :=
      fun event hevent ↦ hswaps event (by simp [hevent])
    have hcomplete := forwards.complete fun event hevent ↦
      redeploySucceeds_of_swaps (hforward event hevent)
    obtain ⟨hfailure, hsucceeded, -⟩ := hcomplete
    cases concludes with
    | failed failure =>
      rw [hfailure] at failure
      cases failure
    | inconsistent _ mixed =>
      have hne : succeeded ≠ [] := by
        rintro rfl
        exact hreplicas hsucceeded.symm
      rw [commonStrategy_of_all (forwards.strategies hforward) hne] at mixed
      cases mixed
    | unwritten _ _ persists =>
      obtain ⟨event, hevent, hstore, hfault⟩ := UpgradeRoute.Persists.faulted persists
      exact absurd (hanswers event (by simp [hevent]) hstore) hfault

/-- What one undisturbed upgrade does: it asks no agent and leaves the records, or it writes the
record of the app whose containers it has replaced. -/
theorem Upgrades.applied (h : Upgrades law deps workspaceId command w r w' calls)
    (hswaps : ∀ event ∈ calls, Swaps event.1 event.2)
    (hanswers : ∀ event ∈ calls, UpgradeRoute.IsStore event.1 → event.2.fault = .none) :
    (∀ event ∈ calls, ∀ sent, event.1 ≠ .request sent) ∧ w'.apps = w.apps ∨
      Redeployed calls ∧ ∃ swap app, Selects deps workspaceId command w swap ∧
        Written law swap w w' app := by
  have hrecords := h
  cases h with
  | unswapped apps plain => exact .inl ⟨no_request_of_isPlain plain, apps⟩
  | @swapped swap _ w₁ w₂ _ before calls after selects apps plain _ performs apps' unlocks =>
    by_cases hreplicas : swap.app.replicas = []
    · obtain ⟨rfl, e, rfl⟩ := performs.of_no_replicas hreplicas
      refine .inl ⟨fun event hevent ↦ ?_, UpgradeRoute.apps_of_upgrades hrecords hanswers⟩
      rw [append_nil, mem_append] at hevent
      obtain hevent | hevent := hevent
      · exact no_request_of_isPlain plain event hevent
      · exact no_request_of_release unlocks event hevent
    · right
      obtain ⟨app, hwritten⟩ := performs.written hreplicas
        (fun event hevent ↦ hswaps event (by simp [hevent]))
        (fun event hevent ↦ hanswers event (by simp [hevent]))
      refine ⟨?_, swap, app, selects, (hwritten.of_apps apps).then_apps apps'⟩
      simp only [redeployed_append]
      exact .inl (.inr (performs.redeployed hreplicas))

end

/-! ## Runs -/

section

variable {deps : DeploymentDeps} {workspaceId appId : String} {w w' : World}
  {steps earlier later : List UpgradeStep} {step : UpgradeStep}

theorem UpgradeRun.executes {law : Law} (run : UpgradeRun law deps workspaceId w steps w') :
    ∀ step ∈ steps, Executes (cluster law).traced
      (upgradeMcpV3 deps workspaceId step.command.toClusterUpgradeCommandPayloadV3)
      (step.before, []) (.ofExcept step.outcome) (step.after, step.calls) := by
  induction run with
  | start => exact fun _ h ↦ nomatch h
  | step _ execution ih =>
    exact forall_mem_append.mpr ⟨ih, forall_mem_singleton.mpr execution⟩

theorem UpgradeRun.upTo {law : Law} (run : UpgradeRun law deps workspaceId w steps w')
    (hsteps : steps = earlier ++ step :: later) :
    UpgradeRun law deps workspaceId w earlier step.before := by
  induction run generalizing later with
  | start => simp at hsteps
  | @step steps w' w'' command outcome calls earlier' _ ih =>
    obtain rfl | ⟨later, last, rfl⟩ := eq_nil_or_concat later
    · obtain ⟨rfl, hlast⟩ := append_inj' hsteps rfl
      rw [← singleton_inj.mp hlast]
      exact earlier'
    · have hinit : steps ++ [⟨command, outcome, w', w'', calls⟩] =
          (earlier ++ step :: later) ++ [last] := by
        rw [hsteps]
        simp
      exact ih (append_inj' hinit rfl).1

/-- Each undisturbed step asks no agent and leaves the records, or writes the record of its app. -/
theorem applied_of_executes {command : ClusterUpgradeCommandPayloadV3}
    {outcome : Except JsError Upgraded} {calls : List (Call × Choice)}
    (execution : Executes (cluster undisturbed).traced (upgradeMcpV3 deps workspaceId command)
      (w, []) (.ofExcept outcome) (w', calls)) :
    (∀ event ∈ calls, ∀ sent, event.1 ≠ .request sent) ∧ w'.apps = w.apps ∨
      Redeployed calls ∧ ∃ swap app, Selects deps workspaceId command w swap ∧
        Written undisturbed swap w w' app := by
  have hlaw : ∀ c x w, undisturbed c x w → Swaps c x ∧ (UpgradeRoute.IsStore c → x.fault = .none) :=
    fun _ _ _ h ↦ h
  obtain ⟨hupgrades, hcalls⟩ := (upgradeMcpV3_traces.permitted hlaw).post execution
  exact hupgrades.applied (fun event hevent ↦ (hcalls event hevent).1)
    fun event hevent ↦ (hcalls event hevent).2

theorem not_redeployed_of_no_request {calls : List (Call × Choice)}
    (h : ∀ event ∈ calls, ∀ sent, event.1 ≠ .request sent) : ¬ Redeployed calls := by
  rintro ⟨event, hevent, hredeploy⟩
  unfold isRedeploy at hredeploy
  split at hredeploy
  next hcall => exact h event hevent _ hcall
  · cases hredeploy

theorem lastApplied_append : lastApplied (steps ++ [step]) =
    if step.calls.any (isRedeploy ·.1) then some step.command else lastApplied steps := by
  unfold lastApplied
  split
  next happlied => simp [happlied]
  next happlied => simp [happlied]

theorem any_isRedeploy_iff {calls : List (Call × Choice)} :
    calls.any (isRedeploy ·.1) ↔ Redeployed calls := by
  simp [Redeployed]

theorem Selects.names {command : ClusterUpgradeCommandPayloadV3} {swap : Swap}
    (h : Selects deps workspaceId command w swap) : swap.app.appId = command.clusterAppId := by
  have haffinity := h.ready.affinity
  simp only [upgradeAffinity, Bool.and_eq_true, beq_iff_eq] at haffinity
  exact haffinity.1.1.1.1.1.1.1

/-- The record shows the revision of the last command that touched a container. -/
theorem UpgradeRun.lastApplied (run : UpgradeRun undisturbed deps workspaceId w steps w')
    (hcommands : ∀ step ∈ steps, step.command.clusterAppId = appId) {command : ConsumedUpgradeCommand}
    (hlast : RuntimeSwap.lastApplied steps = some command) :
    ∃ app, w'.app appId = some app ∧ app.mcpAppliedRevision = some command.revision := by
  induction run generalizing command with
  | start => cases hlast
  | @step steps w' w'' command' outcome calls _ execution ih =>
    rw [lastApplied_append] at hlast
    have hearlier : ∀ step ∈ steps, step.command.clusterAppId = appId :=
      fun step hstep ↦ hcommands step (mem_append_left _ hstep)
    have happId : command'.clusterAppId = appId :=
      hcommands ⟨command', outcome, w', w'', calls⟩ (by simp)
    obtain ⟨hquiet, happs⟩ | ⟨htouched, swap, app, hselects, hwritten⟩ := applied_of_executes execution
    · have hnone : calls.any (isRedeploy ·.1) = false := by
        rw [Bool.eq_false_iff]
        exact fun h ↦ not_redeployed_of_no_request hquiet (any_isRedeploy_iff.mp h)
      rw [hnone] at hlast
      obtain ⟨app, happ, hrevision⟩ := ih hearlier hlast
      refine ⟨app, ?_, hrevision⟩
      rwa [World.app, happs]
    · rw [any_isRedeploy_iff.mpr htouched] at hlast
      obtain rfl := some.inj hlast
      obtain ⟨swapStrategy, time, -, rfl⟩ := hwritten.strategy
      have hid : swap.app.appId = appId := hselects.names.trans happId
      refine ⟨_, hid ▸ hwritten.record, ?_⟩
      rw [← hselects.obeys]
      rfl

/-- A verified command that is applied brings its record to other digests, and to the epoch after
the one that it names as current. -/
theorem changes_of_written {command : ConsumedUpgradeCommand} {swap : Swap} {app : MasterApp}
    (verified : isUpgradeCommand command)
    (hselects : Selects deps workspaceId command.toClusterUpgradeCommandPayloadV3 w swap)
    (hwritten : Written undisturbed swap w w' app) :
    app.mcpAuthorizationEpoch = some (command.authorizationEpoch + 1) ∧
      app.manifestDigest ≠ swap.app.manifestDigest ∧ app.imageDigest ≠ swap.app.imageDigest := by
  obtain ⟨swapStrategy, time, -, rfl⟩ := hwritten.strategy
  simp only [isUpgradeCommand, Bool.and_eq_true, beq_iff_eq, bne_iff_ne] at verified
  obtain ⟨⟨⟨⟨-, hresulting⟩, -⟩, hmanifest⟩, himage⟩ := verified
  simp only [persistedAs, upgradedAs, hselects.obeys, hresulting, hselects.ready.previousManifest,
    hselects.ready.previousImage, ne_eq, Option.some.injEq, true_and]
  exact ⟨hmanifest, himage⟩

end

end RuntimeSwap

namespace Sample

open RuntimeSwap

/-- The agent swaps, and nothing fails. -/
def swapping : Call → Choice
  | .request _ => { answer := some ⟨200, { swapStrategy := some "STOP_THEN_CREATE" }⟩ }
  | _ => {}

theorem undisturbed_swapping (c : Call) (w : World) : undisturbed c (swapping c) w := by
  constructor
  · unfold Swaps
    split
    · exact ⟨_, rfl, by decide, by decide⟩
    · trivial
  · intro _
    cases c <;> rfl

/-- The record has the epoch that the command names as its result already. -/
def rotated : MasterApp := { upgradable with mcpAuthorizationEpoch := some 8 }

def rotatedWorld : World := world rotated (by decide +kernel)

/-- The command, carried out in some world. -/
def swapped (w : World) : Except JsError Upgraded × World × List (Call × Choice) :=
  (cluster undisturbed).traced.run (fun c _ ↦ swapping c)
    (upgradeMcpV3 deploymentDeps "acme" upgradeCommand) (w, [])

def swappedStep (w : World) : UpgradeStep :=
  ⟨consumed, (swapped w).1, w, (swapped w).2.1, (swapped w).2.2⟩

theorem run_swapped (w : World) :
    UpgradeRun undisturbed deploymentDeps "acme" w [swappedStep w] (swapped w).2.1 :=
  .step .start (Machine.executes_run _ _ (fun c s ↦ undisturbed_swapping c s.1) _ _)

theorem rotated_swapped :
    (swapped rotatedWorld).2.2.any (isRedeploy ·.1) ∧
      ((swapped rotatedWorld).2.1.app "notes").map (·.mcpAuthorizationEpoch) = some (some 8) := by
  decide

theorem rotatedWorld_app : rotatedWorld.app "notes" = some rotated := by
  decide

theorem upgradableWorld_app : upgradableWorld.app "notes" = some upgradable := by
  decide

end Sample

namespace RuntimeSwap

end RuntimeSwap

end PrivosCluster
