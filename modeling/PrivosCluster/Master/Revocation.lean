import PrivosCluster.Master.AppLifecycleSpec

/-!
# Revoking one app

What a revoking removal that returns has achieved. QUARANTINED is also the state of an MCP app
that awaits its activation, and the idempotence check of a revocation reads the state alone, so
the removal returns at once for such an app too.
-/

namespace PrivosCluster

open AsyncProgram DocumentStore AppLifecycle

/-! ## A small cluster -/

namespace Sample

def node (nodeId : String) : MasterNode where
  nodeId := nodeId
  failureDomain := nodeId
  capacity := ⟨4096, 4, 100000000⟩
  status := .active
  updatedAt := 0

/-- An app with one replica, in container `c1` on node `n1`. -/
def app (kind : Option AppKind) (state : AppState) (quarantinedAt : Option Time) : MasterApp where
  appId := "notes"
  workspaceId := "acme"
  listingId := "listing"
  versionDigest := "sha256:version"
  image := "registry/notes"
  imageDigest := "sha256:image"
  resources := ⟨256, 1, 64⟩
  port := 3001
  envVars := []
  volumes := []
  storageBytes := 0
  availabilityTier := .single
  stateless := true
  subdomain := some "notes"
  uiUrl := some "https://notes.example.com"
  replicas := [{ replicaId := "r1", nodeId := "n1", containerId := "c1", state := "running" }]
  state := state
  quarantinedAt := quarantinedAt
  createdAt := 0
  updatedAt := 0
  kind := kind

def workspace (status : WorkspaceStatus) : MasterWorkspace where
  workspaceId := "acme"
  keyHash := ""
  encryptedKey := ""
  quota := ⟨4096, 4, 10⟩
  defaultAvailabilityTier := .single
  status := status
  createdAt := 0
  updatedAt := 0

/-- One app of an active workspace, with its container running on its node. -/
def world (app : MasterApp) (h : (appKeys app).Nodup) : World :=
  { World.initial with
    apps := ⟨[app], by simpa using h⟩
    nodes := ⟨[node "n1"], by decide⟩
    workspaces := ⟨[workspace .active], by decide⟩
    containers := fun nodeId containerId ↦
      if nodeId = "n1" ∧ containerId = "c1" then some ⟨"acme", "notes", "sha256:image", true⟩
      else none }

theorem nodup_running : (appKeys (app none .running none)).Nodup := by decide

def deps : LifecycleDeps := ⟨true, true⟩

end Sample

/-! ## What a revocation achieves -/

/-- The record is quarantined, and every reaper pass from its grace clock on selects it. -/
def ReapedAfterGrace (w : World) (appId : String) : Prop :=
  ∃ app time, w.app appId = some app ∧ app.state = .quarantined ∧ app.quarantinedAt = some time ∧
    ∀ cutoff, time ≤ cutoff → app ∈ w.apps.docs.filter (QuarantineReaper.expired cutoff)

/-- A stop command has gone to every replica of the app whose node `known` knows. -/
def StopsSent (known w : World) (app : MasterApp) : Prop :=
  ∀ replica ∈ app.replicas, (nodeOf known.nodes.docs replica.nodeId).isSome →
    stopCommand app.workspaceId replica ∈ w.requests

variable {appId workspaceId : String} {w : World}

theorem reapedAfterGrace_of_app {app : MasterApp} {time : Time} (happ : w.app appId = some app)
    (hstate : app.state = .quarantined) (htime : app.quarantinedAt = some time) :
    ReapedAfterGrace w appId := by
  refine ⟨app, time, happ, hstate, htime, fun cutoff hcutoff ↦ ?_⟩
  have hmem : app ∈ w.apps.docs := (World.app_eq_some.mp happ).1
  simpa [QuarantineReaper.expired, hstate, htime] using ⟨hmem, hcutoff⟩

/-- The record of an app that a revocation quarantined. -/
structure RevokeQuarantined (w : World) (workspaceId appId : String) (app : MasterApp) : Prop where
  record : w.app appId = some app
  workspace : app.workspaceId = workspaceId
  state : app.state = .quarantined
  clockStarted : app.quarantinedAt.isSome

theorem RevokeQuarantined.reapedAfterGrace {app : MasterApp}
    (h : RevokeQuarantined w workspaceId appId app) : ReapedAfterGrace w appId := by
  obtain ⟨time, htime⟩ := Option.isSome_iff_exists.mp h.clockStarted
  exact reapedAfterGrace_of_app h.record h.state htime

namespace Sample

/-- An app that a revocation quarantined at time 0. -/
def quarantinedApp : MasterApp := app none .quarantined (some 0)

def quarantinedWorld : World := world quarantinedApp (by decide)

theorem revokeQuarantined : RevokeQuarantined quarantinedWorld "acme" "notes" quarantinedApp :=
  ⟨by decide +kernel, rfl, rfl, rfl⟩

end Sample

/-- The removal loads the record, and returns at once when it is in state QUARANTINED. -/
theorem remove_revoked_ends {law : Law} {deps : LifecycleDeps} {app : MasterApp}
    (happ : w.app appId = some app) (hworkspace : app.workspaceId = workspaceId)
    (hlive : app.state ≠ .removed) :
    Ends law (fun r w' ↦ r = .ok () →
      if app.state = .quarantined then Quiet w w'
      else (∃ time, w'.app appId = some (quarantinedAs time app)) ∧ StopsSent w w' app)
      (remove deps workspaceId appId true) w := by
  obtain ⟨-, hid⟩ := World.app_eq_some.mp happ
  have hby : byId workspaceId appId app := byId_iff.mpr ⟨hid, hworkspace⟩
  have hfind : w.apps.docs.find? (fun app ↦ byId workspaceId appId app && app.state != .removed) =
      some app :=
    World.find?_apps happ (fun d hd ↦ (byId_iff.mp (Bool.and_eq_true _ _ ▸ hd).1).1)
      (by simp [hby, hlive])
  rw [Ends, remove, load, wp_bind, wp_bind]
  refine ends_findOneApp ?_ fun x _ _ h ↦ by cases h
  rw [hfind, andThen_ok, wp_pure]
  simp only [Bool.true_eq_false, and_false, andThen_ok, if_true]
  by_cases hstate : app.state = .quarantined
  · simp only [hstate, if_true, quarantine]
    exact fun _ ↦ Quiet.refl w
  · simp only [hstate, if_false]
    refine (quarantine_ends hstate).imp fun r w' h hr ↦ ?_
    obtain ⟨⟨time, hrecords⟩, hstops⟩ := h hr
    refine ⟨⟨time, ?_⟩, fun replica hreplica hknown ↦ ?_⟩
    · rw [hrecords, happ, Option.map_some, if_pos hby]
    · rw [hworkspace]
      exact hstops replica hreplica hknown

/--
A revoking removal that returns has done its work exactly when the record was not QUARANTINED
before, or was quarantined by a revocation whose stop commands had all been sent.
-/
theorem remove_revoked_iff {deps : LifecycleDeps} {workspaceId appId : String} {app : MasterApp}
    {w w' : World} (happ : w.app appId = some app) (hworkspace : app.workspaceId = workspaceId)
    (hlive : app.state ≠ .removed)
    (run : Executes (cluster anyLaw) (remove deps workspaceId appId true) w (.returned ()) w') :
    (ReapedAfterGrace w' appId ∧ StopsSent w w' app) ↔
      (app.state ≠ .quarantined ∨ app.quarantinedAt.isSome ∧ StopsSent w w app) := by
  have hend := run.post_returned (remove_revoked_ends happ hworkspace hlive) rfl
  by_cases hstate : app.state = .quarantined
  · rw [if_pos hstate] at hend
    have happ' : w'.app appId = some app := (hend.app appId).trans happ
    have hstops : StopsSent w w' app ↔ StopsSent w w app := by
      unfold StopsSent
      rw [hend.requests]
    rw [hstops]
    simp only [hstate, ne_eq, not_true_eq_false, false_or]
    refine and_congr_left fun _ ↦ ⟨?_, fun h ↦ ?_⟩
    · rintro ⟨app', time, happ'', -, htime, -⟩
      rw [happ', Option.some.injEq] at happ''
      rw [happ'', htime]
      rfl
    · obtain ⟨time, htime⟩ := Option.isSome_iff_exists.mp h
      exact reapedAfterGrace_of_app happ' hstate htime
  · rw [if_neg hstate] at hend
    obtain ⟨⟨time, happ'⟩, hstops⟩ := hend
    exact iff_of_true ⟨reapedAfterGrace_of_app happ' rfl rfl, hstops⟩ (.inl hstate)

/-- A running app is revoked: it is reapable after the grace period, and its replica was stopped. -/
theorem remove_revoked_iff_running :
    let app := Sample.app none .running none
    let w := Sample.world app (by decide)
    let w' := ((cluster anyLaw).run (fun _ _ ↦ {}) (remove Sample.deps "acme" "notes" true) w).2
    ReapedAfterGrace w' "notes" ∧ StopsSent w w' app := by
  intro app w w'
  have hrun := (cluster anyLaw).executes_run (fun _ _ ↦ {}) (fun _ _ ↦ trivial)
    (remove Sample.deps "acme" "notes" true) w
  have hreturned : ((cluster anyLaw).run (fun _ _ ↦ {})
      (remove Sample.deps "acme" "notes" true) w).1 = .ok () := by decide +kernel
  rw [hreturned] at hrun
  have happ : w.app "notes" = some app := by decide +kernel
  exact (remove_revoked_iff happ rfl (by decide) hrun).mpr (.inl (by decide))

/-- Revoking an app that awaits its activation returns without starting the grace clock. -/
theorem remove_revoked_skips_awaiting_activation :
    ¬ ∀ (deps : LifecycleDeps) (workspaceId appId : String) (app : MasterApp) (w w' : World),
      w.app appId = some app → app.workspaceId = workspaceId → app.state ≠ .removed →
      Executes (cluster anyLaw) (remove deps workspaceId appId true) w (.returned ()) w' →
      ReapedAfterGrace w' appId ∧ StopsSent w w' app := by
  intro h
  let app := Sample.app (some .mcpV3) .quarantined none
  let w := Sample.world app (by decide)
  let policy : Call → World → Choice := fun _ _ ↦ {}
  have hrun := (cluster anyLaw).executes_run policy (fun _ _ ↦ trivial)
    (remove Sample.deps "acme" "notes" true) w
  obtain ⟨⟨app', time, happ', -, htime, -⟩, -⟩ :=
    h Sample.deps "acme" "notes" app w _ (by decide +kernel) rfl (by decide) hrun
  have hclock : (((cluster anyLaw).run policy (remove Sample.deps "acme" "notes" true) w).2.app
      "notes").map (·.quarantinedAt) = some none := by decide +kernel
  rw [happ', Option.map_some, htime] at hclock
  exact nomatch hclock

end PrivosCluster
