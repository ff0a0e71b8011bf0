import PrivosCluster.Master.QuotaLifecycle

/-!
# V3 generations and the quota

A reconfiguration pays for new resources by a check. An activation makes none. A deployment checks
a fresh grant for all its planned replicas and a repeated one not at all, and then adds one replica
after the other to a record that counts with the replicas it has so far.
-/

namespace PrivosCluster

open AsyncProgram DocumentStore Option DeploymentV3 RuntimeSwap

variable {replica : AppReplica} {swap : RuntimeSwap.Reconfiguration}
  {command : ClusterReconfigureCommandPayloadV3}

namespace Quota

variable {α : Type} {law : Law} {workspaceId : String} {w : World} {deps : DeploymentDeps}

/-! ## Activation -/

theorem leaves_findInventory {inventoryId : String} :
    Leaves law w (fun _ ↦ True) (findInventory inventoryId) :=
  leaves_call (c := .runtimeResourceInventories (.findOne _)) trivial

theorem leaves_loadActiveNodes {nodeIds : List String} :
    Leaves law w (fun _ ↦ True) (loadActiveNodes nodeIds) :=
  leaves_call (c := .nodes (.find _)) trivial

variable {app : MasterApp}

theorem leaves_recordMcpV3StartedEvents {establishedAt : Time} :
    Leaves law w (fun _ ↦ True) (recordMcpV3StartedEvents app establishedAt) :=
  Meets.forEach fun _ _ ↦
    leaves_tolerateDuplicate (leaves_call (c := .lifecycleEvents (.insertOne _)) trivial)

/-- The live record of a runtime installation. -/
def ofRuntime (workspaceId runtimeInstallationId : String) (app : MasterApp) : Bool :=
  app.workspaceId == workspaceId && app.kind == some .mcpV3 &&
    app.mcpRuntimeInstallationId == some runtimeInstallationId && app.state != .removed

theorem workspaceId_of_ofRuntime {runtimeInstallationId : String}
    (h : ofRuntime workspaceId runtimeInstallationId app) :
    app.workspaceId = workspaceId := by
  simp only [ofRuntime, Bool.and_eq_true, beq_iff_eq] at h
  exact h.1.1.1

theorem establish_stays (hw : Solvent w) (happ : app ∈ w.apps.docs)
    (hworkspace : app.workspaceId = workspaceId) (hfits : app.state = .quarantined →
      FitsBeside workspaceId app.appId app.resources app.replicas.length w) :
    Stays law (establish workspaceId app) w := by
  apply stays_throwIf hw
  intro hstate
  apply stays_then leaves_loadActiveNodes hw
  intro nodes w₁ _ hsame₁ hw₁
  apply stays_throwIf hw₁
  intro _
  apply stays_then (Meets.forSome fun _ _ ↦ leaves_ingressUpsert) hw₁
  intro _ w₂ _ hsame₂ hw₂
  apply stays_now hw₂
  intro w₃ hsame₃ hw₃
  have hsame := (hsame₁.trans hsame₂).trans hsame₃
  have happ₃ : app ∈ w₃.apps.docs := by
    rw [hsame.apps]
    exact happ
  apply stays_updateApp hw₃ happ₃
  · intro d hd
    exact (AppLifecycle.byId_iff.mp ((Bool.and_eq_true _ _).mp hd).1).1
  · apply Affordable.of_fits happ₃
    · rfl
    · exact hw₃.sized app happ₃
    · rw [hworkspace]
      exact (hfits (not_not.mp hstate)).same hw.sized hsame
  · intro activated w₄ hw₄
    split
    · apply stays_then leaves_findOne hw₄
      intro concurrent w₅ _ _ hw₅
      split <;> exact hw₅
    · apply stays_then leaves_recordMcpV3StartedEvents hw₄
      intro _ w₅ _ _ hw₅
      apply stays_then leaves_recordAppInstalledEvent hw₅
      exact fun _ _ _ _ hw₆ ↦ hw₆

theorem activateMcpV3_stays {input : DeploymentV3.McpV3Activation} (hw : Solvent w)
    (hfits : ∀ app, w.apps.docs.find? (ofRuntime workspaceId input.runtimeInstallationId) = some app →
      app.state = .quarantined →
      FitsBeside workspaceId app.appId app.resources app.replicas.length w) :
    Stays law (DeploymentV3.activateMcpV3 deps workspaceId input) w := by
  apply stays_lock hw
  intro w₁ hsame₁ hw₁
  apply stays_then leaves_findOne hw₁
  intro found w₂ hfound hsame₂ hw₂
  split
  · exact hw₂
  next app inventoryId hinstalled =>
    have hsome : found = some app := by
      obtain ⟨app', hsome, hinventory⟩ := bind_eq_some_iff.mp hinstalled
      obtain ⟨_, _, hpair⟩ := map_eq_some_iff.mp hinventory
      exact hsome.trans (congrArg some (congrArg Prod.fst hpair))
    rw [hsome] at hfound
    have hstored : app ∈ w₁.apps.docs := List.mem_of_find?_eq_some hfound.symm
    have hworkspace := workspaceId_of_ofRuntime (List.find?_some hfound.symm)
    rw [hsame₁.apps] at hfound
    apply stays_then leaves_findInventory hw₂
    intro inventory w₃ _ hsame₃ hw₃
    apply stays_throwIf hw₃
    intro _
    have hsame := (hsame₁.trans hsame₂).trans hsame₃
    split
    · apply stays_then leaves_recordMcpV3StartedEvents hw₃
      exact fun _ _ _ _ hw₄ ↦ hw₄
    · apply establish_stays hw₃ _ hworkspace
      · exact fun hstate ↦ (hfits app hfound.symm hstate).same hw.sized hsame
      · rw [(hsame₂.trans hsame₃).apps]
        exact hstored

/-! ## Reconfiguration -/

/-- What a resize adds to the resources of all replicas. -/
def resizeOf (app : MasterApp) (requested : ContainerResources) : Usage :=
  ⟨((requested.memoryMb : Int) - app.resources.memoryMb) * app.replicas.length,
    (requested.cpus - app.resources.cpus) * app.replicas.length⟩

theorem reserve_resize (app : MasterApp) (requested : ContainerResources) :
    reserve requested app.replicas.length = size app + measure 0 (resizeOf app requested) := by
  have hmemory : (requested.memoryMb : Int) * app.replicas.length =
      app.resources.memoryMb * app.replicas.length +
        ((requested.memoryMb : Int) - app.resources.memoryMb) * app.replicas.length := by
    rw [Int.sub_mul]
    omega
  have hcpus : requested.cpus * (app.replicas.length : Rat) =
      app.resources.cpus * app.replicas.length +
        (requested.cpus - app.resources.cpus) * app.replicas.length := by
    rw [sub_mul, add_sub_cancel]
  exact congrArg₂ Prod.mk rfl (congrArg₂ Prod.mk hmemory hcpus)

theorem leaves_loadReplicaNodes : Leaves law w (fun _ ↦ True) (loadReplicaNodes app) :=
  leaves_loadActiveNodes.seq fun _ ↦ Meets.throwIf.bind fun _ _ ↦ trivial

/-- A resize goes on with room for what it adds. -/
theorem stays_checkResize {resources : Option ContainerResources} {f : List MasterNode → Async α}
    (hw : Solvent w) (hf : ∀ nodes w₁, SameRecords w w₁ → Solvent w₁ →
      (∀ requested, resources = some requested →
        Room workspaceId (measure 0 (resizeOf app requested)) w₁) → Stays law (f nodes) w₁) :
    Stays law (checkResize workspaceId app resources >>= f) w := by
  cases resources with
  | none =>
    apply stays_then leaves_loadReplicaNodes hw
    exact fun nodes w₁ _ hsame hw₁ ↦ hf nodes w₁ hsame hw₁ nofun
  | some requested =>
    unfold checkResize
    rw [Program.bind_assoc]
    apply stays_assertMore hw
    intro w₁ hsame₁ hroom
    have hw₁ := hw.same hsame₁
    rw [Program.bind_assoc]
    apply stays_then leaves_loadReplicaNodes hw₁
    intro nodes w₂ _ hsame₂ hw₂
    rw [Program.bind_assoc]
    apply stays_then leaves_find hw₂
    intro running w₃ _ hsame₃ hw₃
    rw [Program.bind_assoc]
    apply stays_ofExcept hw₃
    intro _ _
    apply hf nodes w₃ ((hsame₁.trans hsame₂).trans hsame₃) hw₃
    intro requested' hrequested
    obtain rfl := some.inj hrequested
    exact hroom.same hw₁.sized (hsame₂.trans hsame₃)

theorem leaves_platformEnvVarsV3 :
    Leaves law w (fun _ ↦ True) (platformEnvVarsV3 deps app) := by
  apply Meets.seq
  · unfold resolvePrimaryUrl
    split
    · exact (leaves_call (c := .service (.primaryOf _ _)) trivial).seq fun _ ↦ trivial
    · trivial
  · exact fun _ ↦ trivial

theorem leaves_requestReconfigure {resources : ContainerResources} :
    Leaves law w (fun _ ↦ True) (requestReconfigure swap replica resources) :=
  leaves_requestNode

theorem leaves_rollBackResize {failed : String} :
    Leaves law w (fun _ ↦ True) (rollBackResize swap failed replica) := by
  have hback : Leaves law w (fun _ ↦ True) (do
      let response ← requestReconfigure swap replica swap.app.resources
      Program.throwIf (300 ≤ response.status)
        { message := "rollback agent call returned " ++ toString response.status ++ ": " ++
            response.body.json }) :=
    leaves_requestReconfigure.seq fun _ ↦ Meets.throwIf.imp fun _ _ ↦ trivial
  apply hback.settle.bind
  intro rollback _
  cases rollback <;> trivial

theorem leaves_reconfigureReplica {done : List (AppReplica × AgentBody)} :
    Leaves law w (fun _ ↦ True) (reconfigureReplica swap done replica) := by
  apply leaves_requestReconfigure.seq
  intro response
  split
  · apply (Meets.onlyIf fun _ ↦ Meets.forEach fun _ _ ↦ leaves_rollBackResize).seq
    exact fun _ ↦ trivial
  · trivial

theorem applyReconfigure_stays (hw : Solvent w) (happ : app ∈ w.apps.docs)
    (hworkspace : app.workspaceId = workspaceId) (hstate : app.state = .running)
    (hcpus : ∀ requested, command.resources = some requested → 0 ≤ requested.cpus) :
    Stays law (applyReconfigure deps workspaceId command app) w := by
  apply stays_checkResize hw
  intro nodes w₁ hsame₁ hw₁ hroom
  apply stays_then leaves_platformEnvVarsV3 hw₁
  intro platformEnvVars w₂ _ hsame₂ hw₂
  apply stays_then (Meets.foldEach (fun _ _ _ _ ↦ leaves_reconfigureReplica) trivial) hw₂
  intro done w₃ _ hsame₃ hw₃
  apply stays_now hw₃
  intro w₄ hsame₄ hw₄
  have hlater := (hsame₂.trans hsame₃).trans hsame₄
  have happ₄ : app ∈ w₄.apps.docs := by
    rw [(hsame₁.trans hlater).apps]
    exact happ
  have hinstalled : isInstalledForQuota app w₄.clock := by simp [isInstalledForQuota, hstate]
  apply stays_updateApp hw₄ happ₄
  · intro d hd
    exact (AppLifecycle.byId_iff.mp ((Bool.and_eq_true _ _).mp hd).1).1
  · cases hresources : command.resources with
    | none =>
      apply Affordable.of_le hw₄
      · rfl
      · simp only [reconfiguredAs, hresources, getD_none]
        exact hw₄.sized app happ₄
      · simp [charge, size, reconfiguredAs, hresources, isInstalledForQuota]
    | some requested =>
      have hrequested := hcpus requested hresources
      refine ⟨rfl, ?_, _, hworkspace ▸ (hroom requested hresources).same hw₁.sized hlater, ?_⟩
      · simpa only [reconfiguredAs, hresources, getD_some] using hrequested
      · rw [charge_of_installed rfl hinstalled, ← reserve_resize]
        apply le_trans (b := size (reconfiguredAs command _ _ app)) (charge_le_size _)
        · simp [size, reconfiguredAs, hresources]
        · simpa only [reconfiguredAs, hresources, getD_some] using hrequested
  · intro persisted w₅ hw₅
    apply stays_throwIf hw₅
    intro _
    apply stays_then leaves_findOne hw₅
    intro reconfigured w₆ _ _ hw₆
    split
    · exact hw₆
    · have hevent : ∀ resources, Leaves law w₆ (fun _ ↦ True) (do
          let eventId ← randomUUID
          LifecycleEvents.insertOne
            { eventId, workspaceId, appId := app.appId, type := .resized, resources,
              time := w₄.clock }) :=
        fun _ ↦ (meets_randomUUID plain).seq fun _ ↦
          leaves_call (c := .lifecycleEvents (.insertOne _)) trivial
      apply stays_then (Meets.forSome fun resources _ ↦ hevent resources) hw₆
      exact fun _ _ _ _ hw₇ ↦ hw₇

theorem reconfigureMcpV3_stays (hw : Solvent w)
    (hcpus : ∀ requested, command.resources = some requested → 0 ≤ requested.cpus) :
    Stays law (RuntimeSwap.reconfigureMcpV3 deps workspaceId command) w := by
  apply stays_lock hw
  intro w₁ _ hw₁
  apply stays_then leaves_findOne hw₁
  intro found w₂ hfound hsame₂ hw₂
  cases found with
  | none => exact hw₂
  | some app =>
    have happ : app ∈ w₂.apps.docs := by
      rw [hsame₂.apps]
      exact List.mem_of_find?_eq_some hfound.symm
    have hworkspace := workspaceId_of_ofRuntime (List.find?_some hfound.symm)
    apply stays_throwIf hw₂
    intro hstate
    apply stays_throwIf hw₂
    intro _
    apply stays_throwIf hw₂
    intro _
    split
    · apply stays_of_leaves (P := fun _ ↦ True) _ hw₂
      exact Meets.ofExcept fun _ _ ↦ trivial
    · exact applyReconfigure_stays hw₂ happ hworkspace (not_not.mp hstate) hcpus

end Quota

end PrivosCluster
