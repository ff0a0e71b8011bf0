import PrivosCluster.Master.UpgradeRollback
import PrivosCluster.Master.WorkspaceQuota

/-!
# When a configuration epoch is applied

The checks in front of a reconfiguration read a missing epoch as the first one. The update at its
end compares epochs in the database, where a missing epoch compares with nothing. So a record
without an epoch passes the checks, its containers are replaced, and the update finds no record.
-/

namespace PrivosCluster

open AsyncProgram DocumentStore DeploymentV3 List AppLifecycle Quota Option

variable {requested : ContainerResources} {w' : World}

namespace RuntimeSwap

/-- The resize fits into the quota of the workspace from now on, and onto the nodes. -/
structure FitsResize (workspaceId : String) (w : World) (app : MasterApp)
    (requested : ContainerResources) : Prop where
  quota : ∃ workspace : MasterWorkspace, w.workspaces.docs.find? (fun workspace ↦
      workspace.workspaceId == workspaceId && workspace.status == .active) = some workspace ∧
    ∀ time, w.clock ≤ time →
      let wanted := (Quota.used (Quota.installedIn workspaceId { w with clock := time })).add
        ⟨((requested.memoryMb : Int) - app.resources.memoryMb) * app.replicas.length,
          (requested.cpus - app.resources.cpus) * app.replicas.length⟩
      wanted.memoryMb ≤ workspace.quota.maxMemoryMb ∧ wanted.cpus ≤ workspace.quota.maxCpus
  room : checkResizeRoom app
      (w.nodes.docs.filter fun node ↦
        (app.replicas.map (·.nodeId)).contains node.nodeId && node.status == .active)
      (w.apps.docs.filter (·.state == .running)) requested = .ok ()

/-- A running record that a newer configuration epoch is meant for, on nodes that are there. -/
structure Reconfigurable (workspaceId : String) (command : ClusterReconfigureCommandPayloadV3)
    (w : World) (app : MasterApp) : Prop where
  found : w.apps.docs.find? (isInstallation workspaceId command.runtimeInstallationId) = some app
  running : app.state = .running
  affinity : reconfigureAffinity app command = true
  newer : app.appliedConfigEpoch.getD 1 < command.configEpoch
  placed : ∀ replica ∈ app.replicas, ∃ node ∈ w.nodes.docs,
    node.nodeId = replica.nodeId ∧ node.status = .active
  fits : ∀ requested, command.resources = some requested → FitsResize workspaceId w app requested

/-- Every agent accepts what it is asked, and no other call fails. -/
def smooth : Law
  | .request _, x, _ => ∃ response, x.answer = some response ∧ response.status < 300
  | _, x, _ => x.fault = .none

/-- The record has the epoch, the environment and the resources of the command. -/
def Applied (deps : DeploymentDeps) (command : ClusterReconfigureCommandPayloadV3) (app : MasterApp)
    (w : World) : Prop :=
  ∃ time, w.app app.appId = some
    (reconfiguredAs command (sealOperatorEnv deps.crypto command.envVars command.secretKeys) time app)

section Checks

variable {workspaceId : String} {command : ClusterReconfigureCommandPayloadV3} {w : World}
  {app : MasterApp}

theorem quiet_clock {time : Time} (h : w.clock ≤ time) : Quiet w { w with clock := time } :=
  ⟨rfl, rfl, rfl, rfl, rfl, h⟩

theorem FitsResize.quiet (h : FitsResize workspaceId w app requested) (hquiet : Quiet w w') :
    FitsResize workspaceId w' app requested where
  quota := by
    obtain ⟨workspace, hworkspace, hquota⟩ := h.quota
    refine ⟨workspace, by rw [hquiet.workspaces]; exact hworkspace, fun time htime ↦ ?_⟩
    have hwithin := hquota time (hquiet.clock.trans htime)
    simpa only [installedIn, hquiet.apps] using hwithin
  room := by
    rw [hquiet.nodes, hquiet.apps]
    exact h.room

theorem Reconfigurable.quiet (h : Reconfigurable workspaceId command w app) (hquiet : Quiet w w') :
    Reconfigurable workspaceId command w' app :=
  { h with
    found := by rw [hquiet.apps]; exact h.found
    placed := by rw [hquiet.nodes]; exact h.placed
    fits := fun requested hrequested ↦ (h.fits requested hrequested).quiet hquiet }

/-- What the quota checks count is what is installed at some time from now on. -/
theorem ends_installedApps {workspace : MasterWorkspace}
    (hworkspace : w.workspaces.docs.find? (fun workspace ↦
      workspace.workspaceId == workspaceId && workspace.status == .active) = some workspace) :
    Ends smooth (fun r w' ↦ Quiet w w' ∧ ∃ time, w.clock ≤ time ∧
      r = .ok (workspace, installedIn workspaceId { w with clock := time }))
      (installedApps workspaceId) w := by
  unfold installedApps
  rw [Ends, wp_bind]
  apply ends_now
  intro time htime
  rw [andThen_ok, wp_bind]
  have hfirst : ∀ w', Quiet w w' → EndsQuietly smooth (some workspace)
      (Workspaces.findOne fun workspace ↦
        workspace.workspaceId == workspaceId && workspace.status == .active) w' := by
    intro w' hquiet
    refine ends_awaitCall (.workspaces (.findOne _)) fun x hx ↦ ?_
    have hfault : x.fault = .none := hx
    have hfind := hworkspace
    rw [← hquiet.workspaces] at hfind
    simp only [respond, serveStore_findOne, hfault, if_true, hfind]
    exact ⟨trivial, Quiet.refl _⟩
  have hsecond : ∀ w', Quiet w w' → EndsQuietly smooth
      (w.apps.docs.filter fun app ↦
        app.workspaceId == workspaceId && installedCandidateStates.contains app.state)
      (Apps.find fun app ↦
        app.workspaceId == workspaceId && installedCandidateStates.contains app.state) w' := by
    intro w' hquiet
    apply ends_findApps
    · rw [hquiet.apps]
      exact ⟨rfl, Quiet.refl _⟩
    · intro x hx hfault
      exact absurd hx hfault
  have hquiet := quiet_clock htime
  apply (endsQuietly_promiseBoth (fun w' h ↦ hfirst w' (hquiet.trans h))
    fun w' h ↦ hsecond w' (hquiet.trans h)).imp
  rintro r w' ⟨rfl, hquiet'⟩
  refine ⟨hquiet.trans hquiet', time, htime, ?_⟩
  rw [List.filter_filter]
  congr 2
  apply filter_congr
  intro app _
  cases hstate : app.state <;>
    simp [isInstalledForQuota, installedCandidateStates, hstate, Bool.and_comm]

theorem ends_assertResizeAllowed (h : FitsResize workspaceId w app requested) :
    EndsQuietly smooth () (assertResizeAllowed workspaceId app requested) w := by
  obtain ⟨workspace, hworkspace, hquota⟩ := h.quota
  unfold assertResizeAllowed
  rw [EndsQuietly, Ends, wp_bind]
  apply (ends_installedApps hworkspace).imp
  rintro r w' ⟨hquiet, time, htime, rfl⟩
  obtain ⟨hmemory, hcpus⟩ := hquota time htime
  rw [andThen_ok]
  unfold assertWithin
  rw [wp_bind, wp_throwIf, if_neg (not_lt.mpr hmemory), andThen_ok, wp_throwIf,
    if_neg (not_lt.mpr hcpus)]
  exact ⟨rfl, hquiet⟩

theorem ends_loadReplicaNodes (hplaced : ∀ replica ∈ app.replicas, ∃ node ∈ w.nodes.docs,
    node.nodeId = replica.nodeId ∧ node.status = .active) :
    EndsQuietly smooth (w.nodes.docs.filter fun node ↦
      (app.replicas.map (·.nodeId)).contains node.nodeId && node.status == .active)
      (loadReplicaNodes app) w := by
  unfold loadReplicaNodes loadActiveNodes
  rw [EndsQuietly, Ends, wp_bind]
  apply ends_findNodes
  · rw [andThen_ok, wp_bind, wp_throwIf, if_neg (placed_iff.mp hplaced)]
    exact ⟨rfl, Quiet.refl w⟩
  · intro x hx hfault
    exact absurd hx hfault

/-- The checks of a resize pass, and the nodes of the replicas are all there. -/
theorem ends_checkResize (h : Reconfigurable workspaceId command w app) :
    EndsQuietly smooth (w.nodes.docs.filter fun node ↦
      (app.replicas.map (·.nodeId)).contains node.nodeId && node.status == .active)
      (checkResize workspaceId app command.resources) w := by
  unfold checkResize
  cases hresources : command.resources with
  | none => exact ends_loadReplicaNodes h.placed
  | some requested =>
    have hfits := h.fits requested hresources
    rw [EndsQuietly, Ends, wp_bind]
    apply (ends_assertResizeAllowed hfits).imp
    rintro r w₁ ⟨rfl, hquiet₁⟩
    rw [andThen_ok, wp_bind]
    have hplaced := (h.quiet hquiet₁).placed
    apply (ends_loadReplicaNodes hplaced).imp
    rintro r w₂ ⟨rfl, hquiet₂⟩
    have hquiet := hquiet₁.trans hquiet₂
    rw [andThen_ok, wp_bind]
    apply ends_findApps
    · rw [andThen_ok, hquiet₁.nodes, hquiet.apps, hfits.room]
      exact ⟨rfl, hquiet⟩
    · intro x hx hfault
      exact absurd hx hfault

theorem ends_platformEnvVarsV3 (deps : DeploymentDeps) (app : MasterApp) (w : World) :
    Ends smooth (fun r w' ↦ (∃ vars, r = .ok vars) ∧ Quiet w w') (platformEnvVarsV3 deps app) w := by
  have hurl : Ends smooth (fun r w' ↦ (∃ url, r = .ok url) ∧ Quiet w w')
      (resolvePrimaryUrl deps app) w := by
    unfold resolvePrimaryUrl
    split
    · rw [Ends, wp_bind]
      refine ends_awaitCall (.service (.primaryOf app.workspaceId app.appId)) fun x hx ↦ ?_
      have hfault : x.fault = .none := hx
      simp only [respond, hfault, ne_eq, not_true_eq_false, and_false, if_false, andThen_ok, wp_pure]
      exact ⟨⟨_, rfl⟩, rfl, rfl, rfl, rfl, rfl, Int.le_add_of_nonneg_right (Int.natCast_nonneg _)⟩
    · exact ⟨⟨_, rfl⟩, Quiet.refl w⟩
  unfold platformEnvVarsV3
  rw [Ends, wp_bind]
  apply hurl.imp
  rintro r w' ⟨⟨url, rfl⟩, hquiet⟩
  exact ⟨⟨_, rfl⟩, hquiet⟩

/-- All replicas are reconfigured, and no record is written meanwhile. -/
theorem ends_fanOut {swap : Reconfiguration}
    (hnodes : ∀ replica ∈ swap.app.replicas,
      (nodeOf swap.nodes replica.nodeId).isSome) :
    Ends smooth (fun r w' ↦ (∃ done, r = .ok done) ∧ w'.apps = w.apps)
      (Program.foldEach (reconfigureReplica swap) [] swap.app.replicas) w := by
  have hloop : Ends smooth (onOutcome (fun _ w' ↦ w'.apps = w.apps) fun _ _ ↦ False)
      (Program.foldEach (reconfigureReplica swap) [] swap.app.replicas) w := by
    apply wp_foldEach (I := fun _ _ (w' : World) ↦ w'.apps = w.apps) (E := fun _ _ ↦ False)
    · intro visited replica rest done w' hreplicas happs
      have hmem : replica ∈ swap.app.replicas := by simp [hreplicas]
      obtain ⟨node, hnode⟩ := Option.isSome_iff_exists.mp (hnodes replica hmem)
      unfold reconfigureReplica requestReconfigure
      rw [hnode, wp_bind]
      apply ends_request
      intro x hx
      obtain ⟨response, hanswer, hstatus⟩ := hx
      rw [hanswer, andThen_ok, if_neg (not_le.mpr hstatus)]
      exact happs
    · rfl
  apply hloop.imp
  intro r w' hr
  cases r with
  | ok done => exact ⟨⟨done, rfl⟩, hr⟩
  | error e => exact hr.elim

end Checks

/-! ## Writing the epoch down -/

section

variable {deps : DeploymentDeps} {workspaceId : String}
  {command : ClusterReconfigureCommandPayloadV3} {w : World} {app : MasterApp}

theorem Applied.of_apps (h : Applied deps command app w) (happs : w'.apps = w.apps) :
    Applied deps command app w' := by
  obtain ⟨time, hrecord⟩ := h
  exact ⟨time, by rw [World.app, happs]; exact hrecord⟩

/-- A record that lacks the epoch before the command does not have the epoch of the command. -/
theorem not_applied (hrecord : w.app app.appId = some app) (hepoch : app.appliedConfigEpoch = none) :
    ¬ Applied deps command app w := by
  rintro ⟨time, hwritten⟩
  rw [hrecord] at hwritten
  have hsame : app.appliedConfigEpoch = some command.configEpoch := by
    rw [some.inj hwritten]
    rfl
  rw [hepoch] at hsame
  cases hsame

/-- The guarded update takes the record exactly when the record has an epoch. -/
theorem ends_persistReconfigure {α : Type} {f : UpdateResult → Async α}
    (hfound : w.apps.docs.find? (isInstallation workspaceId command.runtimeInstallationId) = some app)
    (hnewer : app.appliedConfigEpoch.getD 1 < command.configEpoch) (sealed : SealedEnv) (time : Time)
    (hsealed : sealed = sealOperatorEnv deps.crypto command.envVars command.secretKeys)
    (htaken : app.appliedConfigEpoch.isSome → ∀ w' result, Applied deps command app w' →
      result.matchedCount = 1 →
      Ends smooth (fun _ w'' ↦ Applied deps command app w'') (f result) w')
    (hmissed : app.appliedConfigEpoch = none → ∀ w' result, ¬ Applied deps command app w' →
      result.matchedCount = 0 →
      Ends smooth (fun _ w'' ↦ ¬ Applied deps command app w'') (f result) w') :
    Ends smooth (fun _ w' ↦ Applied deps command app w' ↔ app.appliedConfigEpoch.isSome)
      (Apps.updateOne
        (fun candidate ↦ AppLifecycle.byId workspaceId app.appId candidate &&
          candidate.appliedConfigEpoch.any (· < command.configEpoch))
        (reconfiguredAs command sealed time) >>= f) w := by
  have hmem := mem_of_find?_eq_some hfound
  have hfilter := find?_some hfound
  simp only [isInstallation, Bool.and_eq_true, beq_iff_eq] at hfilter
  have hrecord : w.app app.appId = some app := World.app_eq_some.mpr ⟨hmem, rfl⟩
  have hby : AppLifecycle.byId workspaceId app.appId app :=
    byId_iff.mpr ⟨rfl, hfilter.1.1.1⟩
  have hid : ∀ candidate, (AppLifecycle.byId workspaceId app.appId candidate &&
      candidate.appliedConfigEpoch.any (· < command.configEpoch)) →
      candidate.appId = app.appId := by
    intro candidate hcandidate
    rw [Bool.and_eq_true] at hcandidate
    exact (byId_iff.mp hcandidate.1).1
  have hkeys : ∀ d, (AppLifecycle.byId workspaceId app.appId d &&
      d.appliedConfigEpoch.any (· < command.configEpoch)) →
      appKeys (reconfiguredAs command sealed time d) = appKeys d := fun _ _ ↦ rfl
  rw [Ends, wp_bind]
  apply ends_updateApp hkeys
  · intro apps hdocs
    have hlookup := World.app_of_updateFirst hdocs hid (fun _ ↦ rfl) app.appId
    rw [hrecord, Option.map_some] at hlookup
    cases hepoch : app.appliedConfigEpoch with
    | none =>
      have hmiss : ¬ (AppLifecycle.byId workspaceId app.appId app &&
          app.appliedConfigEpoch.any (· < command.configEpoch)) := by
        simp [hepoch]
      rw [if_neg hmiss] at hlookup
      have hnone : w.apps.docs.find? (fun candidate ↦
          AppLifecycle.byId workspaceId app.appId candidate &&
            candidate.appliedConfigEpoch.any (· < command.configEpoch)) = none := by
        rw [find?_eq_none]
        intro candidate hcandidate hmatch
        have hsame := World.app_eq_some.mpr ⟨hcandidate, hid candidate hmatch⟩
        obtain rfl := some.inj (hrecord.symm.trans hsame)
        exact hmiss hmatch
      apply (hmissed hepoch _ _ (not_applied hlookup hepoch) ?_).imp
      · intro _ w' hw'
        exact iff_of_false hw' (by simp)
      · rw [hnone]
        rfl
    | some epoch =>
      have hmatch : (AppLifecycle.byId workspaceId app.appId app &&
          app.appliedConfigEpoch.any (· < command.configEpoch)) := by
        rw [hepoch, Option.getD_some] at hnewer
        simp [hby, hepoch, hnewer]
      rw [if_pos hmatch] at hlookup
      apply (htaken (by rw [hepoch]; rfl) _ _ ⟨time, hsealed ▸ hlookup⟩ ?_).imp
      · intro _ w' hw'
        exact iff_of_true hw' rfl
      · rw [World.find?_apps hrecord hid hmatch]
        rfl
  · intro x hx hfault
    exact absurd (show x.fault = .none from hx) (by rw [hfault]; decide)
  · intro x hx hfault
    exact absurd (show x.fault = .none from hx) (by rw [hfault]; decide)

/-- After the record is written it is read again, and a resize is noted. -/
theorem quiet_reread {law : Law} {appliedAt : Time} {done : List (AppReplica × AgentBody)} :
    IsQuiet law (do
      let reconfigured ← Apps.findOne (AppLifecycle.byId workspaceId app.appId)
      match reconfigured.filter fun app ↦ app.appliedConfigEpoch == some command.configEpoch with
      | none => .throw reconfigureConflict
      | some reconfigured => do
        Program.forSome command.resources fun resources ↦ do
          let eventId ← randomUUID
          LifecycleEvents.insertOne
            { eventId, workspaceId, appId := app.appId, type := .resized, resources,
              time := appliedAt }
        .pure (⟨reconfigured, appliedKeys command,
          consolidateReportedSecurityProfile (done.map (·.2)) app.replicas.length⟩ : Reconfigured)) := by
  apply Meets.bind (quiet_awaitCall (c := .apps (.findOne _)) trivial)
  intro reconfigured _
  split
  · trivial
  · have hnoted : ∀ resources : ContainerResources, IsQuiet law (do
        let eventId ← randomUUID
        LifecycleEvents.insertOne
          { eventId, workspaceId, appId := app.appId, type := .resized, resources,
            time := appliedAt }) := fun resources ↦
      Meets.bind (quiet_awaitCall (c := .service .randomUUID) trivial) fun eventId _ ↦
        quiet_awaitCall (c := .lifecycleEvents (.insertOne _)) trivial
    apply Meets.bind (R := fun _ ↦ True)
    · cases command.resources with
      | none => trivial
      | some resources => exact hnoted resources
    · intro _ _
      trivial

/-- What a reconfiguration leaves in the record, when all its requests are accepted. -/
theorem ends_applyReconfigure (h : Reconfigurable workspaceId command w app) :
    Ends smooth (fun _ w' ↦ Applied deps command app w' ↔ app.appliedConfigEpoch.isSome)
      (applyReconfigure deps workspaceId command app) w := by
  unfold applyReconfigure
  rw [Ends, wp_bind]
  apply (ends_checkResize h).imp
  rintro r w₁ ⟨rfl, hquiet₁⟩
  rw [andThen_ok, wp_bind]
  apply (ends_platformEnvVarsV3 deps app w₁).imp
  rintro r w₂ ⟨⟨platformEnvVars, rfl⟩, hquiet₂⟩
  have hquiet := hquiet₁.trans hquiet₂
  rw [andThen_ok, wp_bind]
  apply (ends_fanOut ?_).imp
  · rintro r w₃ ⟨⟨done, rfl⟩, happs⟩
    rw [andThen_ok, wp_bind]
    apply ends_now
    intro time _
    have hfound := h.found
    rw [← hquiet.apps, ← happs] at hfound
    apply ends_persistReconfigure (w := { w₃ with clock := time }) hfound h.newer _ time rfl
    · intro _ w₄ result happlied hmatched
      rw [Ends, wp_bind, wp_throwIf, if_neg (not_not.mpr hmatched)]
      apply quiet_reread.ends
      intro r w₅ hquiet₅
      exact happlied.of_apps hquiet₅.apps
    · intro _ w₄ result hmissed hmatched
      rw [Ends, wp_bind, wp_throwIf, if_pos (by rw [hmatched]; decide)]
      exact hmissed
  · intro replica hreplica
    obtain ⟨node, hnode, hid, hactive⟩ := h.placed replica hreplica
    rw [nodeOf, find?_isSome]
    refine ⟨node, mem_filter.mpr ⟨hnode, ?_⟩, by simp [hid]⟩
    simp only [Bool.and_eq_true, contains_iff_mem, List.mem_map, beq_iff_eq]
    exact ⟨⟨replica, hreplica, hid.symm⟩, hactive⟩

theorem ends_reconfigureMcpV3 (h : Reconfigurable workspaceId command w app) :
    Ends smooth (fun _ w' ↦ Applied deps command app w' ↔ app.appliedConfigEpoch.isSome)
      (reconfigureMcpV3 deps workspaceId command) w := by
  unfold reconfigureMcpV3 withWorkspaceLock
  rw [Ends, wp_bind]
  apply ends_awaitCall (.acquire workspaceId)
  intro x _
  have hlocked := h.quiet (respond_quiet (c := .acquire workspaceId) trivial x w)
  simp only [respond, andThen_ok] at hlocked ⊢
  rw [wp_finallyDo, wp_bind]
  apply ends_findOneApp
  · have hfound : w.apps.docs.find? (fun app ↦ app.workspaceId == workspaceId &&
        app.kind == some .mcpV3 && app.mcpRuntimeInstallationId == some command.runtimeInstallationId &&
        app.state != .removed) = some app := hlocked.found
    rw [andThen_ok, hfound]
    have hnewer := h.newer
    rw [wp_bind, wp_throwIf, if_neg (not_not.mpr h.running), andThen_ok, wp_bind, wp_throwIf,
      if_neg (by rw [h.affinity]; decide), andThen_ok, wp_bind, wp_throwIf,
      if_neg (Nat.not_lt.mpr hnewer.le), if_neg hnewer.ne']
    apply (ends_applyReconfigure hlocked).imp
    intro r w' hr
    apply ends_awaitCall (.release workspaceId)
    intro x' _
    have hreleased : (respond (.release workspaceId) x' w').2.apps = w'.apps := rfl
    have hsame : Applied deps command app (respond (.release workspaceId) x' w').2 ↔
        Applied deps command app w' :=
      ⟨fun happlied ↦ happlied.of_apps hreleased.symm, fun happlied ↦ happlied.of_apps hreleased⟩
    exact hsame.trans hr
  · intro x' hx' hfault
    exact absurd hx' hfault

end

end RuntimeSwap

namespace Sample

open RuntimeSwap

def reconfigureCommand : ClusterReconfigureCommandPayloadV3 where
  clusterId := "cluster"
  deploymentId := "deployment"
  generationId := "generation"
  generationNumber := 1
  runtimeInstallationId := "installation"
  clusterAppId := "notes"
  mcpAppId := "mcp"
  manifestDigest := digest 'a'
  resourceManifestHash := "AAAAAAAAAAAAAAAAAAAAAAAAAAAAAAAAAAAAAAAAAAA"
  runtimeResourceInventoryHash := "AAAAAAAAAAAAAAAAAAAAAAAAAAAAAAAAAAAAAAAAAAA"
  authorizationEpoch := 7
  configEpoch := 2
  envVars := [("LOG_LEVEL", "debug")]
  secretKeys := []
  resources := none

/-- A running generation with or without a configuration epoch. -/
def configured (epoch : Option Nat) : MasterApp := { upgradable with appliedConfigEpoch := epoch }

def configuredWorld (epoch : Option Nat) : World :=
  world (configured epoch) nodup_upgradable

theorem reconfigurable_configured {epoch : Option Nat} (h : epoch.getD 1 < 2) :
    Reconfigurable "acme" reconfigureCommand (configuredWorld epoch) (configured epoch) where
  found := by
    have hmatch : isInstallation "acme" "installation" (configured epoch) :=
      show isInstallation "acme" "installation" upgradable by decide +kernel
    exact find?_cons_of_pos hmatch
  running := rfl
  affinity := show reconfigureAffinity upgradable reconfigureCommand by decide +kernel
  newer := h
  placed := by
    intro replica hreplica
    exact ⟨node "n1", mem_singleton.mpr rfl, by
      rw [mem_singleton.mp (show replica ∈ [_] from hreplica)]; rfl, rfl⟩
  fits _ hrequested := nomatch hrequested

/-- The agent accepts what it is asked. -/
def accepting : Call → Choice
  | .request _ => { answer := some ⟨200, {}⟩ }
  | _ => {}

theorem smooth_accepting (c : Call) (w : World) : smooth c (accepting c) w := by
  cases c with
  | request => exact ⟨_, rfl, by decide⟩
  | _ => rfl

def reconfigured (epoch : Option Nat) : Except JsError Reconfigured × World :=
  (cluster smooth).run (fun c _ ↦ accepting c)
    (reconfigureMcpV3 deploymentDeps "acme" reconfigureCommand) (configuredWorld epoch)

theorem executes_reconfigured (epoch : Option Nat) :
    Executes (cluster smooth) (reconfigureMcpV3 deploymentDeps "acme" reconfigureCommand)
      (configuredWorld epoch) (.ofExcept (reconfigured epoch).1) (reconfigured epoch).2 :=
  Machine.executes_run _ _ (smooth_accepting) _ _

end Sample

namespace RuntimeSwap

end RuntimeSwap

end PrivosCluster
