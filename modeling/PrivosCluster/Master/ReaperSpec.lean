import PrivosCluster.AsyncProgram.History
import PrivosCluster.Master.Footprint
import PrivosCluster.Master.Revocation
import PrivosCluster.Master.WorkspaceCluster

/-!
# Which apps a reaper pass destroys

The pass selects by the app records alone. An upsert that brings a revoked workspace back writes
the workspace record alone, so the records of its apps keep their grace clock.
-/

namespace PrivosCluster

open AsyncProgram DocumentStore AppLifecycle QuarantineReaper List

def ActiveWorkspace (w : World) (workspaceId : String) : Prop :=
  ∃ workspace ∈ w.workspaces.docs, workspace.workspaceId = workspaceId ∧ workspace.status = .active

/-- The records of active workspaces are as they were, and their agents were sent nothing. -/
structure SparesActive (w w' : World) : Prop where
  records : ∀ app : MasterApp, ActiveWorkspace w app.workspaceId →
    (app ∈ w'.apps.docs ↔ app ∈ w.apps.docs)
  requests : ∀ sent ∈ w'.requests, ActiveWorkspace w sent.workspaceId → sent ∈ w.requests

/-- A pass that is given no time reads one from the clock. -/
def MayRunAt (given : Option Time) (w : World) (time : Time) : Prop :=
  given.elim (w.clock ≤ time) (time = ·)

/-- At no time the pass may run at is an app of an active workspace past its grace period. -/
def NoneDue (graceMs : Int) (given : Option Time) (w : World) : Prop :=
  ∀ time, MayRunAt given w time → ∀ app ∈ w.apps.docs, expired (time - graceMs) app = true →
    ¬ ActiveWorkspace w app.workspaceId

variable {filter : MasterApp → Bool} {update : Time → MasterApp → MasterApp} {given : Option Time}
  {graceMs : Int} {apps : Collection MasterApp appKeys} {appId' workspaceId' : String} {time : Time}
  {result : Result}

section Spares

variable {law : Law} {deps : LifecycleDeps} {w : World}

/-- The invariant of a pass that started in `w`. -/
def SparedSince (w w' : World) : Prop := SparesActive w w' ∧ w.clock ≤ w'.clock

theorem SparedSince.of_quiet {w' w'' : World} (h : SparedSince w w') (hquiet : Quiet w' w'') :
    SparedSince w w'' := by
  refine ⟨⟨fun app happ ↦ ?_, fun sent hsent ↦ ?_⟩, Int.le_trans h.2 hquiet.clock⟩
  · rw [hquiet.apps]
    exact h.1.records app happ
  · rw [hquiet.requests] at hsent
    exact h.1.requests sent hsent

theorem reads_sparedSince : Reads law (.keep (SparedSince w))
    ⟨fun app ↦ ActiveWorkspace w app.workspaceId → app ∈ w.apps.docs, fun _ ↦ True,
      fun _ ↦ True⟩ :=
  Reads.of (fun _ _ _ hw hquiet ↦ hw.of_quiet hquiet)
    (fun _ _ hw app happ hactive ↦ (hw.1.records app hactive).mp happ)
    (fun _ _ _ _ _ ↦ trivial) fun _ _ _ _ _ ↦ trivial

variable {workspaceId : String}

/-- A write to a record of another workspace spares the active ones. -/
theorem allowsUpdate_sparedSince (hw : ¬ ActiveWorkspace w workspaceId)
    (hfilter : ∀ app, filter app → app.workspaceId = workspaceId)
    (hupdate : ∀ time app, (update time app).workspaceId = app.workspaceId) :
    AllowsUpdate law (.keep (SparedSince w)) filter update := by
  refine allowsUpdate_keep (fun time w' apps h hdocs ↦ ?_) fun w' apps h hdocs ↦ ?_
  · refine ⟨⟨fun app happ ↦ ?_, h.1.requests⟩, h.2⟩
    have hother : ∀ app : MasterApp, ActiveWorkspace w app.workspaceId → filter app = false := by
      intro app happ
      by_contra hf
      rw [hfilter app (by simpa using hf)] at happ
      exact hw happ
    rw [hdocs, ← h.1.records app happ]
    refine ⟨fun hmem ↦ ?_, fun hmem ↦ mem_updateFirst_of_not hmem (hother app happ)⟩
    obtain hmem | ⟨app₀, -, hf, rfl⟩ := mem_updateFirst hmem
    · exact hmem
    · rw [hupdate] at happ
      rw [hother app₀ happ] at hf
      cases hf
  · refine ⟨⟨fun app happ ↦ ?_, h.1.requests⟩, h.2⟩
    rw [hdocs]
    exact h.1.records app happ

theorem allowsCommands_sparedSince {K : Known} {app : MasterApp}
    {command : AppReplica → AgentRequest} (hw : ¬ ActiveWorkspace w workspaceId) :
    AllowsCommands law (.keep (SparedSince w)) K workspaceId app command := by
  intro replica _ node _ _ x w' h _
  refine ⟨⟨⟨h.1.records, fun sent hsent hactive ↦ ?_⟩, h.2⟩, fun _ _ ↦ trivial⟩
  obtain hsent | hsent := mem_append.mp hsent
  · exact h.1.requests sent hsent hactive
  · rw [mem_singleton.mp hsent] at hactive
    exact absurd hactive hw

theorem byId_workspaceId {appId : String} (app : MasterApp)
    (h : byId workspaceId appId app) : app.workspaceId = workspaceId :=
  (byId_iff.mp h).2

theorem byId_and_workspaceId {appId : String} {p : MasterApp → Bool} (app : MasterApp)
    (h : (byId workspaceId appId app && p app)) : app.workspaceId = workspaceId :=
  byId_workspaceId app (Bool.and_eq_true _ _ ▸ h).1

theorem meets_passTime :
    Meets (cluster law) (.keep (SparedSince w)) (MayRunAt given w)
      (given.elim now Program.pure) := by
  cases given with
  | some time => exact rfl
  | none =>
    refine Meets.ask fun x w' h _ ↦
      ⟨h.of_quiet (respond_quiet (c := .service .now) trivial x w'), fun time htime ↦ ?_⟩
    simp only [cluster, respond, Service.Fallible, Bool.false_eq_true, false_and, if_false,
      Service.serve, Except.ok.injEq] at htime
    rw [← htime]
    exact Int.le_trans h.2 (Int.le_add_of_nonneg_right (Int.natCast_nonneg _))

theorem pass_keeps (h : NoneDue graceMs given w) :
    Keeps (cluster law) (SparedSince w) (fun _ ↦ True)
      (reapExpiredQuarantines deps graceMs given) := by
  refine reapExpiredQuarantines_meets (fun _ ↦ True) reads_sparedSince meets_passTime
    fun app time htime hknown hexpired ↦ ?_
  have hinactive : ¬ ActiveWorkspace w app.workspaceId :=
    fun hactive ↦ h time htime app (hknown hactive) hexpired hactive
  exact {
    claims := AllowsUpdate.claims
      (allowsUpdate_sparedSince hinactive byId_and_workspaceId fun _ _ ↦ rfl)
    destroys := fun _ _ _ _ ↦ {
      sends := allowsCommands_sparedSince hinactive
      removing := allowsUpdate_sparedSince hinactive byId_workspaceId fun _ _ ↦ rfl
      removed := allowsUpdate_sparedSince hinactive byId_workspaceId fun _ _ ↦ rfl } }

end Spares

/-! ## A pass with an app that is due -/

section Due

variable {deps : LifecycleDeps} {w : World}

/-- No call on a store fails. -/
def Faultless : Law := fun _ x _ ↦ x.fault = .none

/-- The app has left QUARANTINED. -/
def HasLeft (workspaceId appId : String) (w : World) : Prop :=
  ∀ app ∈ w.apps.docs, byId workspaceId appId app = true → app.state ≠ .quarantined

variable {workspaceId appId : String}

theorem HasLeft.of_update {update : MasterApp → MasterApp} (h : HasLeft workspaceId appId w)
    (hdocs : apps.docs = updateFirst filter update w.apps.docs)
    (hupdate : ∀ app, (update app).state ≠ .quarantined) :
    HasLeft workspaceId appId { w with apps } := by
  intro app happ hby
  rw [hdocs] at happ
  obtain happ | ⟨app₀, -, -, rfl⟩ := mem_updateFirst happ
  · exact h app happ hby
  · exact hupdate app₀

theorem allowsUpdate_hasLeft {law : Law}
    (hupdate : ∀ time app, (update time app).state ≠ .quarantined) :
    AllowsUpdate law (.keep (HasLeft workspaceId appId)) filter update := by
  refine allowsUpdate_keep (fun time w apps h hdocs ↦ h.of_update hdocs (hupdate time))
    fun w apps h hdocs app happ hby ↦ ?_
  rw [hdocs] at happ
  exact h app happ hby

theorem reads_hasLeft {law : Law} :
    Reads law (.keep (HasLeft workspaceId appId)) ⟨fun _ ↦ True, fun _ ↦ True, fun _ ↦ True⟩ :=
  Reads.of
    (fun _ _ _ hw hquiet app happ hby ↦ hw app (by rwa [hquiet.apps] at happ) hby)
    (fun _ _ _ _ _ ↦ trivial) (fun _ _ _ _ _ ↦ trivial) fun _ _ _ _ _ ↦ trivial

theorem allowsDestroy_hasLeft {law : Law} {app : MasterApp} :
    AllowsDestroy law (.keep (HasLeft workspaceId appId)) ⟨fun _ ↦ True, fun _ ↦ True, fun _ ↦ True⟩
      workspaceId' appId' app where
  sends _ _ _ _ _ _ _ h _ := ⟨h, fun _ _ ↦ trivial⟩
  removing := allowsUpdate_hasLeft fun _ _ ↦ by simp [removingAs]
  removed := allowsUpdate_hasLeft fun _ _ ↦ by simp [removedAs]

/-- No reap brings an app back to QUARANTINED. -/
theorem reapQuarantined_keeps {law : Law} :
    Keeps (cluster law) (HasLeft workspaceId appId) (fun _ ↦ True)
      (reapQuarantined deps workspaceId' appId') :=
  reapQuarantined_meets reads_hasLeft
    { claims := (allowsUpdate_hasLeft fun _ _ ↦ by simp [removingAs]).claims
      destroys := fun _ _ _ _ ↦ allowsDestroy_hasLeft }

/-- After a claim that met no fault the app is no longer QUARANTINED. -/
theorem hasLeft_of_claim (hdocs : apps.docs = updateFirst
      (fun app ↦ byId workspaceId appId app && app.state == .quarantined) (removingAs time)
      w.apps.docs) : HasLeft workspaceId appId { w with apps } := by
  have hmap : apps.docs = w.apps.docs.map fun app ↦
      if byId workspaceId appId app && app.state == .quarantined then removingAs time app
      else app := by
    rw [hdocs]
    exact updateFirst_eq_map (w.apps.ids_nodup appIdentity) (a := appId) fun app h ↦
      (byId_iff.mp (Bool.and_eq_true _ _ ▸ h).1).1
  intro app happ hby hstate
  rw [hmap] at happ
  obtain ⟨app₀, -, rfl⟩ := List.mem_map.mp happ
  split at hstate
  · cases hstate
  next hnot =>
    rw [if_neg hnot] at hby
    exact hnot (by simp [hby, hstate])

theorem reapQuarantined_ends :
    Ends Faultless (fun _ w' ↦ HasLeft workspaceId appId w')
      (reapQuarantined deps workspaceId appId) w := by
  rw [Ends, reapQuarantined, wp_bind]
  refine ends_now fun time _ ↦ ?_
  rw [andThen_ok, wp_bind]
  refine ends_updateApp (fun _ _ ↦ rfl) (fun apps hdocs ↦ ?_) (fun x hx hfault ↦ ?_)
    fun x hx hfault ↦ ?_
  · have hleft : HasLeft workspaceId appId { w with clock := time, apps } := hasLeft_of_claim hdocs
    rw [andThen_ok]
    split
    · exact hleft
    · exact Keeps.ends (meets_destroyClaimed reads_hasLeft fun _ _ _ ↦ allowsDestroy_hasLeft) hleft
  · rw [hx] at hfault
    cases hfault
  · rw [hx] at hfault
    cases hfault

theorem reapOne_ends {app : MasterApp} {visited : List MasterApp}
    (h : ∀ app' ∈ visited, HasLeft app'.workspaceId app'.appId w) :
    Ends Faultless (onOutcome
        (fun _ w' ↦ ∀ app' ∈ visited ++ [app], HasLeft app'.workspaceId app'.appId w')
        fun _ _ ↦ False)
      (reapOne deps result app) w := by
  have hreap : Ends Faultless (fun _ w' ↦ ∀ app' ∈ visited ++ [app],
      HasLeft app'.workspaceId app'.appId w')
      (reapQuarantined deps app.workspaceId app.appId) w := by
    refine wp_of_executes fun r w' hrun app' happ' ↦ ?_
    obtain happ' | happ' := mem_append.mp happ'
    · exact hrun.post (Keeps.ends reapQuarantined_keeps (h app' happ'))
    · rw [mem_singleton.mp happ']
      exact hrun.post reapQuarantined_ends
  rw [Ends, reapOne, wp_tryCatch, wp_bind]
  refine hreap.imp fun r w' h ↦ ?_
  cases r with
  | ok _ => exact h
  | error _ => exact h

theorem reapAll_ends {apps : List MasterApp} :
    Ends Faultless (onOutcome
        (fun _ w' ↦ ∀ app ∈ apps, HasLeft app.workspaceId app.appId w') fun _ _ ↦ False)
      (Program.foldEach (reapOne deps) result apps) w :=
  wp_foldEach
    (I := fun (visited : List MasterApp) _ w' ↦
      ∀ app ∈ visited, HasLeft app.workspaceId app.appId w')
    (fun _ _ _ _ _ _ h ↦ reapOne_ends h) fun _ h ↦ (nomatch h)

/-- A pass that meets no fault leaves no app QUARANTINED that it found due. -/
theorem pass_ends :
    Ends Faultless (fun _ w' ↦ ∀ app ∈ w.apps.docs, expired (time - graceMs) app →
        HasLeft app.workspaceId app.appId w')
      (reapExpiredQuarantines deps graceMs (some time)) w := by
  rw [Ends, reapExpiredQuarantines, wp_bind, Option.elim_some, wp_pure, andThen_ok, wp_bind]
  refine ends_findApps ?_ fun x hx hfault ↦ absurd hx hfault
  refine reapAll_ends.imp fun r w' h ↦ ?_
  cases r with
  | ok _ => exact fun app happ hexpired ↦ h app (mem_filter.mpr ⟨happ, hexpired⟩)
  | error _ => exact h.elim

/-- An app of an active workspace that is due does not survive a pass that meets no fault. -/
theorem not_spares_of_due (hat : MayRunAt given w time) {app : MasterApp} (happ : app ∈ w.apps.docs)
    (hexpired : expired (time - graceMs) app) (hactive : ActiveWorkspace w app.workspaceId) :
    ∃ outcome w', Executes (cluster anyLaw) (reapExpiredQuarantines deps graceMs given) w outcome w' ∧
      ¬ SparesActive w w' := by
  have hstate : app.state = .quarantined := by
    simp only [expired, Bool.and_eq_true, beq_iff_eq] at hexpired
    exact hexpired.1
  have hself : byId app.workspaceId app.appId app := byId_iff.mpr ⟨rfl, rfl⟩
  -- the pass from the point at which its time is known
  have hrun : ∀ w₁ : World, w₁.apps = w.apps → ∃ outcome w',
      Executes (cluster anyLaw) (reapExpiredQuarantines deps graceMs (some time)) w₁ outcome w' ∧
        ¬ SparesActive w w' := by
    intro w₁ happs
    have hexec := (cluster Faultless).executes_run (fun _ _ ↦ {}) (fun _ _ ↦ rfl)
      (reapExpiredQuarantines deps graceMs (some time)) w₁
    have hend := hexec.post pass_ends
    refine ⟨_, _, executes_of_law (fun _ _ _ _ ↦ trivial) hexec, fun hspares ↦ ?_⟩
    have hkept := (hspares.records app hactive).mpr happ
    rw [happs] at hend
    exact hend app happ hexpired app hkept hself hstate
  cases given with
  | some given =>
    obtain rfl : time = given := hat
    exact hrun w rfl
  | none =>
    have hclock : w.clock ≤ time := hat
    obtain ⟨outcome, w', hexec, hnot⟩ := hrun { w with clock := time } rfl
    refine ⟨outcome, w', .call (x := { elapsed := (time - w.clock).toNat }) trivial ?_, hnot⟩
    have helapsed : w.clock + ((time - w.clock).toNat : Int) = time := by
      rw [Int.toNat_of_nonneg (Int.sub_nonneg.mpr hclock), add_sub_cancel]
    simp only [cluster, respond, Service.Fallible, Bool.false_eq_true, false_and, if_false,
      Service.serve, helapsed]
    exact hexec

end Due

/-- A pass spares every active workspace, whatever it meets, exactly when no app of one is due. -/
theorem pass_spares_iff {deps : LifecycleDeps} {w : World} :
    (∀ outcome w', Executes (cluster anyLaw) (reapExpiredQuarantines deps graceMs given) w outcome w' →
      SparesActive w w') ↔ NoneDue graceMs given w := by
  refine ⟨fun h time hat app happ hexpired hactive ↦ ?_, fun h outcome w' hexec ↦ ?_⟩
  · obtain ⟨outcome, w', hexec, hnot⟩ := not_spares_of_due hat happ hexpired hactive
    exact hnot (h outcome w' hexec)
  · exact (Keeps.executes (pass_keeps h) hexec
      ⟨⟨fun _ _ ↦ Iff.rfl, fun _ h _ ↦ h⟩, Int.le_refl _⟩).1

/-! ## Histories of revocations, upserts and passes -/

inductive WorkspaceEvent where
  | revoke (workspaceId : String)
  | upsert (input : WorkspaceCluster.UpsertInput)
  | unquarantine (workspaceId appId : String)
  | reap (graceMs : Int) (given : Option Time)

def WorkspaceEvent.program (deps : LifecycleDeps) (keys : KeyCrypto) : WorkspaceEvent → Async Unit
  | .revoke workspaceId => PortalAdmin.deleteWorkspace deps workspaceId
  | .upsert input => WorkspaceCluster.upsert keys input
  | .unquarantine workspaceId appId => AppLifecycle.unquarantine deps workspaceId appId
  | .reap graceMs given => do
    let _ ← reapExpiredQuarantines deps graceMs given

/-- The step is no pass, or a pass that finds no app of an active workspace due. -/
def NoActiveDue (step : HistoryStep WorkspaceEvent JsError World) : Prop :=
  ∀ graceMs given, step.operation = .reap graceMs given → NoneDue graceMs given step.before

/-- The step is no pass, or a pass that left the active workspaces alone. -/
def LeavesActive (step : HistoryStep WorkspaceEvent JsError World) : Prop :=
  ∀ graceMs given, step.operation = .reap graceMs given → SparesActive step.before step.after

theorem pass_discard_keeps {deps : LifecycleDeps} {w : World} (h : NoneDue graceMs given w) :
    Keeps (cluster anyLaw) (SparedSince w) (fun _ ↦ True) (do
      let _ ← reapExpiredQuarantines deps graceMs given) :=
  (pass_keeps h).seq fun _ ↦ trivial

namespace Sample

def keys : KeyCrypto := ⟨id, id⟩

/-- The state after an operation that met no fault, with every answer at its default. -/
def after (operation : Async Unit) (w : World) : World :=
  ((cluster anyLaw).run (fun _ _ ↦ {}) operation w).2

def step (event : WorkspaceEvent) (w : World) : HistoryStep WorkspaceEvent JsError World :=
  ⟨event, .ofExcept ((cluster anyLaw).run (fun _ _ ↦ {}) (event.program deps keys) w).1, w,
    after (event.program deps keys) w⟩

/-- An app was running in its workspace, and the workspace is revoked. -/
def revocation : HistoryStep WorkspaceEvent JsError World :=
  step (.revoke "acme") (world (app none .running none) nodup_running)

/-- The workspace comes back. -/
def comeback : HistoryStep WorkspaceEvent JsError World :=
  step (.upsert { workspaceId := "acme", key := "key", quota := ⟨4096, 4, 10⟩ }) revocation.after

/-- A pass, with a grace period of a second. -/
def pass (time : Time) (w : World) : HistoryStep WorkspaceEvent JsError World :=
  step (.reap 1000 (some time)) w

theorem history (time : Time) : History (cluster anyLaw) (WorkspaceEvent.program deps keys)
    revocation.before [revocation, comeback, pass time comeback.after]
    (pass time comeback.after).after :=
  .run (fun _ _ ↦ trivial) (.run (fun _ _ ↦ trivial) (.run (fun _ _ ↦ trivial) .start _) _) _

/-- A pass half a second after the revocation finds nothing that is due. -/
theorem noActiveDue_in_grace :
    ∀ step ∈ [revocation, comeback, pass 500 comeback.after], NoActiveDue step := by
  intro step hstep graceMs given hreap time hat
  have hearly : ∀ app ∈ comeback.after.apps.docs, expired (500 - 1000) app = false := by
    decide +kernel
  simp only [mem_cons, not_mem_nil, or_false] at hstep
  obtain rfl | rfl | rfl := hstep
  · cases hreap
  · cases hreap
  · cases hreap
    obtain rfl : time = 500 := hat
    exact fun app happ hexpired ↦ absurd hexpired (by rw [hearly app happ]; decide)

end Sample

/--
In a history whose passes never find an app of an active workspace due, no pass touches such an
app. In any state in which one is due, a pass that meets no fault would.
-/
theorem reaper_leaves_active_iff {deps : LifecycleDeps} {keys : KeyCrypto} {w₀ w : World}
    {steps : List (HistoryStep WorkspaceEvent JsError World)}
    (history : History (cluster anyLaw) (WorkspaceEvent.program deps keys) w₀ steps w) :
    ((∀ step ∈ steps, NoActiveDue step) → ∀ step ∈ steps, LeavesActive step) ∧
      ∀ graceMs given, (∀ outcome w', Executes (cluster anyLaw)
        (reapExpiredQuarantines deps graceMs given) w outcome w' → SparesActive w w') ↔
          NoneDue graceMs given w := by
  refine ⟨fun h step hstep graceMs given hreap ↦ ?_, fun graceMs given ↦ pass_spares_iff⟩
  have hexec := history.executes step hstep
  rw [hreap] at hexec
  exact (Keeps.executes (pass_discard_keeps (h step hstep graceMs given hreap)) hexec
    ⟨⟨fun _ _ ↦ Iff.rfl, fun _ h _ ↦ h⟩, Int.le_refl _⟩).1

/-- The workspace is back before a pass that comes within the grace period. -/
theorem reaper_leaves_active_iff_in_grace :
    LeavesActive Sample.revocation ∧ LeavesActive Sample.comeback ∧
      LeavesActive (Sample.pass 500 Sample.comeback.after) := by
  have hleaves : ∀ step ∈ [Sample.revocation, Sample.comeback, Sample.pass 500 Sample.comeback.after],
      LeavesActive step :=
    (reaper_leaves_active_iff (Sample.history 500)).1 Sample.noActiveDue_in_grace
  exact ⟨hleaves _ (by simp), hleaves _ (by simp), hleaves _ (by simp)⟩

/-- A workspace that comes back within its grace period loses its apps when the period is over. -/
theorem reaper_destroys_after_comeback :
    ¬ ∀ (deps : LifecycleDeps) (keys : KeyCrypto) (w₀ w : World)
      (steps : List (HistoryStep WorkspaceEvent JsError World)),
      History (cluster anyLaw) (WorkspaceEvent.program deps keys) w₀ steps w →
      ∀ step ∈ steps, LeavesActive step := by
  intro h
  have hspares := h _ _ _ _ _ (Sample.history 2000) (Sample.pass 2000 Sample.comeback.after)
    (by simp) 1000 (some 2000) rfl
  have hactive : ActiveWorkspace Sample.comeback.after "acme" := by
    have hany : Sample.comeback.after.workspaces.docs.any (fun workspace ↦
        workspace.workspaceId == "acme" && workspace.status == .active) = true := by decide +kernel
    obtain ⟨workspace, hmem, hworkspace⟩ := List.any_eq_true.mp hany
    simp only [Bool.and_eq_true, beq_iff_eq] at hworkspace
    exact ⟨workspace, hmem, hworkspace⟩
  have hbefore : ∃ app ∈ Sample.comeback.after.apps.docs,
      app.workspaceId = "acme" ∧ app.state = .quarantined := by
    have hany : Sample.comeback.after.apps.docs.any (fun app ↦
        app.workspaceId == "acme" && app.state == .quarantined) = true := by decide +kernel
    obtain ⟨app, hmem, happ⟩ := List.any_eq_true.mp hany
    simp only [Bool.and_eq_true, beq_iff_eq] at happ
    exact ⟨app, hmem, happ⟩
  obtain ⟨app, happ, hworkspace, hstate⟩ := hbefore
  have hkept := (hspares.records app (hworkspace ▸ hactive)).mpr happ
  have hremoved : ∀ app ∈ (Sample.pass 2000 Sample.comeback.after).after.apps.docs,
      app.state ≠ .quarantined := by decide +kernel
  exact hremoved app hkept hstate

end PrivosCluster
