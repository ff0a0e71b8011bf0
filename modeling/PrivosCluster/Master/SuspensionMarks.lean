import PrivosCluster.Master.WorkspacePower

/-!
# The mark of a suspension

Sequences of suspensions, resumes, power commands and redeployments. As long as no operator's
command reaches an app that carries the mark, the mark tells which stopped apps a suspension was the
last to change, and a resume starts those.
-/

namespace PrivosCluster

open AsyncProgram DocumentStore AppLifecycle List Option

/-- The operations that change the power of apps. -/
inductive PowerOperation where
  | setWorkspacePower (workspaceId : String) (action : WorkspacePower)
  | invoke (workspaceId appId : String) (action : PowerAction)
  | redeploy (workspaceId appId : String) (input : RedeployInput)

namespace PowerOperation

def program (deps : LifecycleDeps) : PowerOperation → Async Unit
  | .setWorkspacePower workspaceId action => do
    let _ ← AppLifecycle.setWorkspacePower deps workspaceId action
    .pure ()
  | .invoke workspaceId appId action => do
    let _ ← AppLifecycle.invoke deps workspaceId appId action
    .pure ()
  | .redeploy workspaceId appId input => do
    let _ ← AppLifecycle.redeploy workspaceId appId input
    .pure ()

/-- The apps whose power the operation changes when nothing fails. -/
def Targets (w : World) : PowerOperation → MasterApp → Prop
  | .setWorkspacePower workspaceId action => fun app ↦ powerSelector workspaceId action app = true
  | .invoke workspaceId appId _ => Reaches w [.mcpV3] workspaceId appId
  | .redeploy workspaceId appId _ => Reaches w [.mcpV2, .mcpV3] workspaceId appId

/-- What the operation makes of a record. -/
def change : PowerOperation → Time → MasterApp → MasterApp
  | .setWorkspacePower _ action => workspacePoweredAs (action = .suspend)
  | .invoke _ _ action => poweredAs (stateAfter action)
  | .redeploy _ _ input => redeployWith input

/-- An operator's command to a single app. -/
def IsOperators : PowerOperation → Prop
  | .setWorkspacePower _ _ => False
  | .invoke _ _ _ => True
  | .redeploy _ _ _ => True

def IsSuspension : PowerOperation → Prop
  | .setWorkspacePower _ action => action = .suspend
  | .invoke _ _ _ => False
  | .redeploy _ _ _ => False

end PowerOperation

abbrev PowerStep := HistoryStep PowerOperation JsError World

/-- The step changed the power of the app: it returned, or it left its change in the record. -/
def Powers (step : PowerStep) (appId : String) : Prop :=
  ∃ app, step.before.app appId = some app ∧ step.operation.Targets step.before app ∧
    (step.outcome = .returned () ∨ step.after.app appId ≠ some app)

/-- The last change of the app's power was a suspension; `w₀` is what the steps began with. -/
inductive SuspendedLast (w₀ : World) (appId : String) : List PowerStep → Prop where
  | start {app : MasterApp} (happ : w₀.app appId = some app)
      (hmarked : app.suspendedWithWorkspace = some true) : SuspendedLast w₀ appId []
  | now {steps : List PowerStep} {step : PowerStep} (hpowers : Powers step appId)
      (hsuspension : step.operation.IsSuspension) : SuspendedLast w₀ appId (steps ++ [step])
  | earlier {steps : List PowerStep} {step : PowerStep} (hsteps : SuspendedLast w₀ appId steps)
      (hpowers : ¬ Powers step appId) : SuspendedLast w₀ appId (steps ++ [step])

variable {appId : String} {operation : PowerOperation}

theorem suspendedLast_nil {w₀ : World} :
    SuspendedLast w₀ appId [] ↔
      ∃ app, w₀.app appId = some app ∧ app.suspendedWithWorkspace = some true := by
  constructor
  · intro h
    generalize hsteps : ([] : List PowerStep) = steps at h
    cases h with
    | start happ hmarked => exact ⟨_, happ, hmarked⟩
    | now => simp at hsteps
    | earlier => simp at hsteps
  · intro h
    obtain ⟨app, happ, hmarked⟩ := h
    exact .start happ hmarked

theorem suspendedLast_append {w₀ : World} {steps : List PowerStep} {step : PowerStep} :
    SuspendedLast w₀ appId (steps ++ [step]) ↔
      (Powers step appId ∧ step.operation.IsSuspension) ∨
        (¬ Powers step appId ∧ SuspendedLast w₀ appId steps) := by
  constructor
  · intro h
    generalize hsteps : steps ++ [step] = all at h
    cases h with
    | start => simp at hsteps
    | now hpowers hsuspension =>
      obtain ⟨-, hstep⟩ := append_inj' hsteps rfl
      obtain rfl := singleton_inj.mp hstep
      exact .inl ⟨hpowers, hsuspension⟩
    | earlier hearlier hpowers =>
      obtain ⟨rfl, hstep⟩ := append_inj' hsteps rfl
      obtain rfl := singleton_inj.mp hstep
      exact .inr ⟨hpowers, hearlier⟩
  · intro h
    obtain ⟨hpowers, hsuspension⟩ | ⟨hpowers, hsteps⟩ := h
    · exact .now hpowers hsuspension
    · exact .earlier hsteps hpowers

/-! ## One step -/

section Step

variable {law : Law} {deps : LifecycleDeps} {step : PowerStep}

/-- What an operation does to the records, whether it returns, throws or is stopped. -/
theorem PowerOperation.changes {w : World} :
    Through law (MayChange (operation.Targets w) operation.change w)
      (fun r w' ↦ r = .ok () → HasChanged (operation.Targets w) operation.change w w')
      (operation.program deps) w := by
  cases operation with
  | setWorkspacePower workspaceId action =>
    rw [Through, program, wp_bind]
    apply wp_mono (fun _ _ _ h ↦ h.apps) (fun r w' h ↦ ?_) through_setWorkspacePower
    cases r with
    | error e => exact fun h ↦ by cases h
    | ok n =>
      intro _ appId app happ hselected
      obtain ⟨time, hrecord⟩ := (h n rfl appId app happ hselected).record
      rw [(World.app_eq_some.mp happ).2] at hrecord
      exact ⟨time, hrecord⟩
  | invoke workspaceId appId action =>
    rw [Through, program, wp_bind]
    refine through_invoke.imp fun r w' h ↦ ?_
    cases r with
    | error e => exact fun h ↦ by cases h
    | ok v => exact fun _ ↦ h v rfl
  | redeploy workspaceId appId input =>
    rw [Through, program, wp_bind]
    refine through_redeploy.imp fun r w' h ↦ ?_
    cases r with
    | error e => exact fun h ↦ by cases h
    | ok v => exact fun _ ↦ h v rfl

/-- A step leaves a record as the operation makes it exactly if it changed the app's power. -/
theorem step_changes (hexec : Executes (cluster law) (step.operation.program deps) step.before
    step.outcome step.after) (appId : String) :
    (Powers step appId → ∃ app time, step.before.app appId = some app ∧
      step.operation.Targets step.before app ∧
      step.after.app appId = some (step.operation.change time app)) ∧
    (¬ Powers step appId → step.after.app appId = step.before.app appId) := by
  have hspec : Through law
      (MayChange (step.operation.Targets step.before) step.operation.change step.before)
      (fun r w' ↦ r = .ok () →
        HasChanged (step.operation.Targets step.before) step.operation.change step.before w')
      (step.operation.program deps) step.before := PowerOperation.changes
  have hmay : MayChange (step.operation.Targets step.before) step.operation.change step.before
      step.after :=
    hexec.invariant hspec (mayChange_of_app_eq fun _ ↦ rfl)
  constructor
  · intro hpowers
    obtain ⟨app, happ, htarget, hdone | hchanged⟩ := hpowers
    · rw [hdone] at hexec
      obtain ⟨time, hrecord⟩ := hexec.post_returned hspec rfl appId app happ htarget
      exact ⟨app, time, happ, htarget, hrecord⟩
    · obtain hsame | ⟨app', time, happ', htarget', hrecord⟩ := hmay appId
      · exact absurd (hsame.trans happ) hchanged
      · exact ⟨app', time, happ', htarget', hrecord⟩
  · intro hpowers
    obtain hsame | ⟨app, time, happ, htarget, hrecord⟩ := hmay appId
    · exact hsame
    · by_cases heq : step.after.app appId = some app
      · rw [heq, happ]
      · exact absurd ⟨app, happ, htarget, .inr heq⟩ hpowers

end Step

/-! ## The mark along a history -/

/-- No operator's command reaches an app that carries the mark. -/
def SparesMarked (step : PowerStep) : Prop :=
  step.operation.IsOperators → ∀ appId app, step.before.app appId = some app →
    step.operation.Targets step.before app → app.suspendedWithWorkspace ≠ some true

/-- The mark tells which stopped apps were last changed by a suspension. -/
def MarksTruthful (w₀ : World) (steps : List PowerStep) (w : World) : Prop :=
  ∀ appId app, w.app appId = some app → (app.suspendedWithWorkspace = some true ↔
    app.state = .stopped ∧ SuspendedLast w₀ appId steps)

section Run

variable {law : Law} {deps : LifecycleDeps} {w₀ w : World} {steps : List PowerStep}

/-- What a change of power does to the mark of an app. -/
theorem PowerOperation.mark_change {app : MasterApp} {time : Time}
    (hspares : operation.IsOperators → app.suspendedWithWorkspace ≠ some true) :
    (operation.change time app).suspendedWithWorkspace = some true ↔
      (operation.change time app).state = .stopped ∧ operation.IsSuspension := by
  cases operation with
  | setWorkspacePower workspaceId action =>
    cases action <;> simp [change, workspacePoweredAs, poweredAs, IsSuspension]
  | invoke workspaceId appId action =>
    simp [change, poweredAs, IsSuspension, hspares trivial]
  | redeploy workspaceId appId input =>
    simp [change, redeployWith, redeployedAs, IsSuspension, hspares trivial]

theorem MarksTruthful.step (step : PowerStep)
    (hexec : Executes (cluster law) (step.operation.program deps) step.before step.outcome
      step.after)
    (hspares : SparesMarked step) (h : MarksTruthful w₀ steps step.before) :
    MarksTruthful w₀ (steps ++ [step]) step.after := by
  intro appId app happ
  obtain ⟨hchanges, hkeeps⟩ := step_changes hexec appId
  rw [suspendedLast_append]
  by_cases hpowers : Powers step appId
  · obtain ⟨app', time, happ', htarget, hrecord⟩ := hchanges hpowers
    obtain rfl := some.inj (happ.symm.trans hrecord)
    rw [PowerOperation.mark_change fun hoperators ↦ hspares hoperators appId app' happ' htarget]
    simp [hpowers]
  · rw [hkeeps hpowers] at happ
    rw [h appId app happ]
    simp [hpowers]

theorem marksTruthful (history : History (cluster law) (PowerOperation.program deps) w₀ steps w)
    (hstart : ∀ appId app, w₀.app appId = some app → app.suspendedWithWorkspace = some true →
      app.state = .stopped)
    (hspares : ∀ step ∈ steps, SparesMarked step) : MarksTruthful w₀ steps w := by
  induction history with
  | start =>
    intro appId app happ
    rw [suspendedLast_nil]
    constructor
    · exact fun hmarked ↦ ⟨hstart appId app happ hmarked, app, happ, hmarked⟩
    · intro h
      obtain ⟨-, app', happ', hmarked⟩ := h
      rwa [some.inj (happ.symm.trans happ')]
  | @step steps w' w'' operation outcome earlier hexec ih =>
    have htruthful := ih fun step hstep ↦ hspares step (mem_append_left _ hstep)
    exact htruthful.step ⟨operation, outcome, w', w''⟩ hexec (hspares _ (by simp))

end Run

/-! ## What a resume starts -/

/-- The step started the apps of the workspace that satisfy `P`, and no others. -/
structure StartsExactly (workspaceId : String) (P : MasterApp → Prop) (step : PowerStep) : Prop where
  started : step.outcome = .returned () → ∀ appId app, step.before.app appId = some app →
    app.workspaceId = workspaceId → P app →
    (∃ time, step.after.app appId = some (workspacePoweredAs false time app)) ∧
      ∀ replica ∈ app.replicas, (nodeOf step.before.nodes.docs replica.nodeId).isSome →
        powerCommand workspaceId .resume replica ∈ sentBetween step.before step.after
  untouched : ∀ appId, (∀ app, step.before.app appId = some app → app.workspaceId = workspaceId →
    ¬ P app) → step.after.app appId = step.before.app appId
  commands : ∀ request ∈ sentBetween step.before step.after, ∃ appId app,
    step.before.app appId = some app ∧ app.workspaceId = workspaceId ∧ P app ∧
      ∃ replica ∈ app.replicas, request = powerCommand workspaceId .resume replica

theorem startsExactly_of_selects {law : Law} {deps : LifecycleDeps} {step : PowerStep}
    {workspaceId : String} {P : MasterApp → Prop}
    (hexec : Executes (cluster law) (step.operation.program deps) step.before step.outcome
      step.after)
    (hresume : step.operation = .setWorkspacePower workspaceId .resume)
    (hselects : ∀ appId app, step.before.app appId = some app →
      (powerSelector workspaceId .resume app ↔ app.workspaceId = workspaceId ∧ P app)) :
    StartsExactly workspaceId P step := by
  have hspec : Through law (Switches workspaceId .resume step.before)
      (fun r w' ↦ r = .ok () → ∀ appId app, step.before.app appId = some app →
        powerSelector workspaceId .resume app →
          Switched workspaceId .resume step.before w' app)
      (step.operation.program deps) step.before := by
    rw [hresume, Through, PowerOperation.program, wp_bind]
    apply through_setWorkspacePower.imp
    intro r w' h
    cases r with
    | error e => exact fun h ↦ by cases h
    | ok n => exact fun _ ↦ h n rfl
  have hswitches : Switches workspaceId .resume step.before step.after :=
    hexec.invariant hspec (.refl rfl rfl)
  constructor
  · intro hdone appId app happ hworkspace hP
    rw [hdone] at hexec
    have hswitched := hexec.post_returned hspec rfl appId app happ
      ((hselects appId app happ).mpr ⟨hworkspace, hP⟩)
    have hid : app.appId = appId := (World.app_eq_some.mp happ).2
    exact ⟨hid ▸ hswitched.record, hswitched.told⟩
  · intro appId hnone
    obtain hsame | ⟨app, time, happ, hselected, -⟩ := hswitches.apps appId
    · exact hsame
    · obtain ⟨hworkspace, hP⟩ := (hselects appId app happ).mp hselected
      exact absurd hP (hnone app happ hworkspace)
  · intro request hrequest
    obtain ⟨sent, hsent, hcommands⟩ := hswitches.sent
    rw [sentBetween, hsent, drop_left] at hrequest
    obtain ⟨appId, app, happ, hselected, hreplica⟩ := hcommands request hrequest
    obtain ⟨hworkspace, hP⟩ := (hselects appId app happ).mp hselected
    exact ⟨appId, app, happ, hworkspace, hP, hreplica⟩

/--
In a history in which no operator's command reaches an app that carries the mark, each resume starts
exactly the stopped apps whose power a suspension was the last to change.
-/
theorem resume_starts_suspended {law : Law} {deps : LifecycleDeps} {w₀ w : World}
    {steps : List PowerStep}
    (history : History (cluster law) (PowerOperation.program deps) w₀ steps w)
    (hstart : ∀ appId app, w₀.app appId = some app → app.suspendedWithWorkspace = some true →
      app.state = .stopped)
    (hspares : ∀ step ∈ steps, SparesMarked step)
    {earlier later : List PowerStep} {step : PowerStep} (hsteps : steps = earlier ++ step :: later)
    {workspaceId : String} (hresume : step.operation = .setWorkspacePower workspaceId .resume) :
    StartsExactly workspaceId
      (fun app ↦ app.state = .stopped ∧ SuspendedLast w₀ app.appId earlier) step := by
  have hexec := history.executes step (by simp [hsteps])
  have htruthful := marksTruthful (history.upTo hsteps) hstart fun step' hstep' ↦
    hspares step' (by simp [hsteps, hstep'])
  apply startsExactly_of_selects hexec hresume
  intro appId app happ
  have hmark := htruthful appId app happ
  rw [(World.app_eq_some.mp happ).2]
  simp only [powerSelector, Bool.and_eq_true, beq_iff_eq, bne_iff_ne, and_assoc]
  constructor
  · intro h
    exact ⟨h.1, hmark.mp h.2.2⟩
  · intro h
    have hstopped : app.state = .stopped := h.2.1
    exact ⟨h.1, by simp [hstopped], hmark.mpr h.2⟩

/-! ## A small workspace -/

/-- Every agent carries out what it is asked for, and no store fails. -/
def agentsServe : Law
  | .request _, x, _ =>
    x.performed = true ∧ ∃ response, x.answer = some response ∧ response.status < 300
  | _, x, _ => x.fault = .none

namespace Sample

/-- Nothing fails, and the ids of events are new. -/
def serving (_ : Call) (w : World) : Choice :=
  { text := String.ofList (List.replicate w.lifecycleEvents.docs.length 'e') }

theorem serving_lawful (c : Call) (w : World) : agentsServe c (serving c w) w := by
  cases c with
  | request sent => exact ⟨rfl, _, rfl, by decide⟩
  | _ => rfl

def powered (operation : PowerOperation) (w : World) : World :=
  ((cluster agentsServe).run serving (operation.program deps) w).2

def powerStep (operation : PowerOperation) (w : World) : PowerStep :=
  ⟨operation, .ofExcept ((cluster agentsServe).run serving (operation.program deps) w).1, w,
    powered operation w⟩

/-- The app runs, and its workspace is suspended. -/
def suspension : PowerStep :=
  powerStep (.setWorkspacePower "acme" .suspend) (world (app none .running none) nodup_running)

/-- An operator starts the app again. -/
def start : PowerStep := powerStep (.invoke "acme" "notes" .start) suspension.after

/-- An operator stops the app for good. -/
def stop : PowerStep := powerStep (.invoke "acme" "notes" .stop) start.after

def resume (w : World) : PowerStep := powerStep (.setWorkspacePower "acme" .resume) w

/-- The state of the app of the small workspace. -/
def stateIn (w : World) : Option AppState := (w.app "notes").map (·.state)

theorem history_snoc {w₀ w : World} {steps : List PowerStep} (operation : PowerOperation)
    (history : History (cluster agentsServe) (PowerOperation.program deps) w₀ steps w) :
    History (cluster agentsServe) (PowerOperation.program deps) w₀
      (steps ++ [powerStep operation w]) (powered operation w) :=
  .run serving_lawful history operation

abbrev SampleHistory (steps : List PowerStep) (w : World) : Prop :=
  History (cluster agentsServe) (PowerOperation.program deps) suspension.before steps w

theorem untouched_history :
    SampleHistory [suspension, resume suspension.after] (resume suspension.after).after :=
  history_snoc _ (history_snoc _ .start)

theorem stopped_history : SampleHistory [suspension, start, stop] stop.after :=
  history_snoc _ (history_snoc _ (history_snoc _ .start))

theorem unmarked_before : ∀ appId app, suspension.before.app appId = some app →
    app.suspendedWithWorkspace = some true → app.state = .stopped := by
  intro appId app happ hmarked
  have hstored := (World.app_eq_some.mp happ).1
  have hnone : ∀ app ∈ suspension.before.apps.docs, app.suspendedWithWorkspace = none := by
    decide +kernel
  rw [hnone app hstored] at hmarked
  cases hmarked

end Sample

open Sample in
/-- The workspace is suspended and resumed, and nobody touches the app in between. -/
theorem resume_starts_suspended_untouched :
    StartsExactly "acme" (fun app ↦ app.state = .stopped ∧
      SuspendedLast suspension.before app.appId [suspension]) (resume suspension.after) := by
  have hsteps : [suspension, resume suspension.after] =
      [suspension] ++ resume suspension.after :: [] := rfl
  apply resume_starts_suspended untouched_history unmarked_before ?_ hsteps rfl
  intro step hstep hoperators
  simp only [mem_cons, not_mem_nil, or_false] at hstep
  rcases hstep with rfl | rfl <;> exact hoperators.elim

open Sample in
/-- An app that was suspended, started and stopped by an operator is started by the resume. -/
theorem resume_starts_stopped_app :
    ¬ ∀ (deps : LifecycleDeps) (w₀ w : World) (steps earlier later : List PowerStep)
      (step : PowerStep) (workspaceId : String),
      History (cluster agentsServe) (PowerOperation.program deps) w₀ steps w →
      (∀ appId app, w₀.app appId = some app → app.suspendedWithWorkspace = some true →
        app.state = .stopped) →
      steps = earlier ++ step :: later →
      step.operation = .setWorkspacePower workspaceId .resume →
      StartsExactly workspaceId
        (fun app ↦ app.state = .stopped ∧ SuspendedLast w₀ app.appId earlier) step := by
  intro h
  have hexact := h _ _ _ _ [suspension, start, stop] [] (resume stop.after) "acme"
    (history_snoc (.setWorkspacePower "acme" .resume) stopped_history) unmarked_before rfl rfl
  have hpowers : Powers stop "notes" := by
    by_contra hnot
    have hexec := stopped_history.executes stop (by simp)
    have hsame := congrArg (Option.map MasterApp.state) ((step_changes hexec "notes").2 hnot)
    have hchanged : stateIn stop.after ≠ stateIn stop.before := by decide +kernel
    exact hchanged hsame
  have hlast : ¬ SuspendedLast suspension.before "notes" [suspension, start, stop] := by
    intro hlast
    have hlast' : SuspendedLast suspension.before "notes" ([suspension, start] ++ [stop]) := hlast
    rcases suspendedLast_append.mp hlast' with hlast | hlast
    · exact hlast.2
    · exact hlast.1 hpowers
  have hkept := hexact.untouched "notes" fun app happ _ hP ↦ by
    rw [(World.app_eq_some.mp happ).2] at hP
    exact hlast hP.2
  have hstarts : stateIn (resume stop.after).after ≠ stateIn (resume stop.after).before := by
    decide +kernel
  exact hstarts (congrArg (Option.map MasterApp.state) hkept)

end PrivosCluster
