import PrivosCluster.Master.QuotaGenerations

/-!
# The quota while a generation is provisioned

A record that is being provisioned counts with the replicas it has so far. What bounds it is the
number of replicas it will have once all its plans are carried out: a replica is recorded only
under the id of its plan and only once, so that number never grows.
-/

namespace PrivosCluster

open AsyncProgram DocumentStore DeploymentV3 List AppLifecycle

variable {app : MasterApp} {filter : MasterApp → Bool} {input : DeployInput}
  {f : MasterApp → Async α}

namespace Quota

/-- The plans of a record whose replicas are not recorded yet. -/
def openPlans (app : MasterApp) : List ProvisioningReplicaPlan :=
  (app.mcpProvisioningReplicas.getD []).filter fun plan ↦
    !app.replicas.any (·.replicaId == plan.replicaId)

/-- The replicas of a record once all its plans are carried out. -/
def plannedReplicas (app : MasterApp) : Nat := app.replicas.length + (openPlans app).length

/-- A replica recorded under the id of an open plan closes it. -/
theorem plannedReplicas_recordedAs {replica : AppReplica} {plan : ProvisioningReplicaPlan}
    {time : Time} (hplan : plan ∈ app.mcpProvisioningReplicas.getD [])
    (hid : replica.replicaId = plan.replicaId)
    (hnew : app.replicas.any (·.replicaId == replica.replicaId) = false) :
    plannedReplicas (recordedAs replica time app) ≤ plannedReplicas app := by
  have hopen : plan ∈ openPlans app := by
    apply mem_filter.mpr
    exact ⟨hplan, by rw [← hid, hnew]; rfl⟩
  have hrest : openPlans (recordedAs replica time app) =
      (openPlans app).filter fun plan' ↦ !(replica.replicaId == plan'.replicaId) := by
    rw [openPlans, openPlans, List.filter_filter]
    apply filter_congr
    intro plan' _
    simp only [recordedAs, any_append, any_cons, any_nil, Bool.or_false, Bool.not_or]
    exact Bool.and_comm _ _
  have hclosed : (openPlans (recordedAs replica time app)).length < (openPlans app).length := by
    rw [hrest]
    apply length_filter_lt_length_iff_exists.mpr
    exact ⟨plan, hopen, by simp [hid]⟩
  have hlength : (recordedAs replica time app).replicas.length = app.replicas.length + 1 := by
    simp [recordedAs]
  rw [plannedReplicas, plannedReplicas]
  omega

/-- A record of the workspace with these resources and plans, and no more replicas planned. -/
structure Planned (workspaceId : String) (resources : ContainerResources)
    (plans : List ProvisioningReplicaPlan) (most : Nat) (app : MasterApp) : Prop where
  workspaceId : app.workspaceId = workspaceId
  resources : app.resources = resources
  plans : app.mcpProvisioningReplicas.getD [] = plans
  replicas : plannedReplicas app ≤ most

/-- What holds while the app is provisioned: there is room for all its planned replicas. -/
structure Provisioning (workspaceId appId : String) (resources : ContainerResources)
    (plans : List ProvisioningReplicaPlan) (most : Nat) (w : World) : Prop where
  solvent : Solvent w
  beside : Beside workspaceId appId (reserve resources most) w
  record : ∀ app ∈ w.apps.docs, app.appId = appId → Planned workspaceId resources plans most app

section

variable {law : Law} {workspaceId appId : String} {resources : ContainerResources}
  {plans : List ProvisioningReplicaPlan} {most : Nat} {w w' : World}

/-- A planned record is charged no more than all its planned replicas reserve. -/
theorem Planned.charge_le {time : Time} (h : Planned workspaceId resources plans most app)
    (hcpus : 0 ≤ app.resources.cpus) : charge workspaceId time app ≤ reserve resources most := by
  apply le_trans (charge_le_size hcpus)
  have hreplicas : app.replicas.length ≤ most := le_trans (Nat.le_add_right _ _) h.replicas
  rw [size, h.resources]
  exact reserve_mono (h.resources ▸ hcpus) hreplicas

theorem lasting_provisioning : Lasting (Provisioning workspaceId appId resources plans most) :=
  fun _ _ h hsame ↦
    { solvent := h.solvent.same hsame
      beside := h.beside.same h.solvent.sized hsame
      record := by
        rw [hsame.apps]
        exact h.record }

/-- A write after which the record is still planned. -/
theorem Provisioning.update {apps : Collection MasterApp appKeys} {update : MasterApp → MasterApp}
    (h : Provisioning workspaceId appId resources plans most w)
    (hdocs : apps.docs = updateFirst filter update w.apps.docs)
    (hfilter : ∀ app, filter app → app.appId = appId ∧ (update app).appId = appId)
    (hupdate : ∀ app, Planned workspaceId resources plans most app → filter app →
      Planned workspaceId resources plans most (update app)) :
    Provisioning workspaceId appId resources plans most { w with apps } where
  solvent := by
    apply h.solvent.update hdocs
    intro app happ hmatch
    obtain ⟨hid, -⟩ := hfilter app hmatch
    have hplanned := h.record app happ hid
    have hupdated := hupdate app hplanned hmatch
    have hcpus : 0 ≤ (update app).resources.cpus := by
      rw [hupdated.resources, ← hplanned.resources]
      exact h.solvent.sized app happ
    have hbeside := h.beside
    rw [← hid, ← hplanned.workspaceId] at hbeside
    apply Affordable.of_beside happ (hupdated.workspaceId.trans hplanned.workspaceId.symm) hcpus hbeside
    rw [hplanned.workspaceId]
    exact hupdated.charge_le hcpus
  beside := h.beside.update hdocs fun app _ hmatch ↦ hfilter app hmatch
  record app happ hid := by
    have hmem : app ∈ updateFirst filter update w.apps.docs := hdocs ▸ happ
    obtain hold | ⟨app₀, happ₀, hmatch, rfl⟩ := mem_updateFirst hmem
    · exact h.record app hold hid
    · exact hupdate app₀ (h.record app₀ happ₀ (hfilter app₀ hmatch).1) hmatch

theorem allows_plannedUpdate {update : Time → MasterApp → MasterApp}
    (hfilter : ∀ time app, filter app →
      app.appId = appId ∧ (update time app).appId = appId)
    (hupdate : ∀ time app, Planned workspaceId resources plans most app → filter app →
      Planned workspaceId resources plans most (update time app)) :
    AllowsUpdate law (.keep (Provisioning workspaceId appId resources plans most)) filter update := by
  apply allowsUpdate_keep
  · intro time w apps hw hdocs
    exact hw.update hdocs (hfilter time) (hupdate time)
  · intro w apps hw hdocs
    cases apps
    cases hdocs
    exact hw

/-! ## Provisioning -/

/-- What a deployment reads of the app it provisions. -/
def knownPlanned (workspaceId appId : String) (resources : ContainerResources)
    (plans : List ProvisioningReplicaPlan) (most : Nat) : Known where
  app app := app.appId = appId → Planned workspaceId resources plans most app
  node _ := True
  workspace _ := True

theorem looks_provisioning :
    Looks law (.keep (Provisioning workspaceId appId resources plans most))
      (knownPlanned workspaceId appId resources plans most) fun _ ↦ True := by
  apply Looks.of
  · exact fun c x w hc hw ↦
      lasting_provisioning w _ hw (respond_sameRecords hc.isQuiet.isRecordless x w)
  · intro _ w hw app happ hid
    have hprovisioning : Provisioning workspaceId appId resources plans most w := hw
    exact hprovisioning.record app happ hid
  · exact fun _ _ _ _ _ ↦ trivial
  · exact fun _ _ _ _ _ ↦ trivial

theorem allows_provision {deps : DeploymentDeps} {grant : McpDeploymentGrantPayloadV3}
    {deploymentGrantHash : String} {hubIdentity : HubIdentity} :
    AllowsProvision law (.keep (Provisioning workspaceId grant.deployment.clusterAppId resources
      plans most)) (knownPlanned workspaceId grant.deployment.clusterAppId resources plans most)
      (fun _ ↦ True) deps workspaceId grant deploymentGrantHash hubIdentity where
  looks := looks_provisioning
  inventories :=
    { opens := fun _ _ _ _ _ ↦ lasting_provisioning.allows trivial
      captures := fun _ _ _ ↦ lasting_provisioning.allows trivial
      finalizes := fun _ _ _ _ _ _ ↦ lasting_provisioning.allows trivial }
  deploys _ _ _ _ _ _ _ _ _ _ := lasting_provisioning.allows trivial
  finalizes _ _ _ _ _ _ _ _ := lasting_provisioning.allows trivial
  records app plan replica hrow hplan hprovisions := by
    apply allows_plannedUpdate
    · intro time d hd
      have hid := (byId_iff.mp ((Bool.and_eq_true _ _).mp hd).1).1
      exact ⟨hid, hid⟩
    · intro time d hplanned hd
      have hread := hrow.known (byId_iff.mp hrow.byId).1
      rw [hread.plans, ← hplanned.plans] at hplan
      have hnew := ((Bool.and_eq_true _ _).mp hd).2
      rw [Bool.not_eq_true'] at hnew
      exact
        { workspaceId := hplanned.workspaceId
          resources := hplanned.resources
          plans := hplanned.plans
          replicas := le_trans (plannedReplicas_recordedAs hplan hprovisions.replicaId hnew)
            hplanned.replicas }
  awaits inventoryId hash := by
    apply allows_plannedUpdate
    · intro time d hd
      have hid := (byId_iff.mp ((Bool.and_eq_true _ _).mp hd).1).1
      exact ⟨hid, hid⟩
    · exact fun time d hplanned _ ↦
        ⟨hplanned.workspaceId, hplanned.resources, hplanned.plans, hplanned.replicas⟩

/-! ## The row of a grant -/

/-- The live record a grant looks for. -/
def ofGeneration (workspaceId : String) (grant : McpDeploymentGrantPayloadV3) (app : MasterApp) :
    Bool :=
  app.workspaceId == workspaceId && app.kind == some .mcpV3 &&
    app.mcpDeploymentId == some grant.deploymentId &&
    app.appId == grant.deployment.clusterAppId && app.state != .removed

/-- A record in a state where the app has no other is planned when it is. -/
theorem Provisioning.of_mem {fresh : MasterApp} (hsolvent : Solvent w) (hfresh : fresh ∈ w.apps.docs)
    (hbeside : Beside workspaceId fresh.appId (reserve resources most) w)
    (hplanned : Planned workspaceId resources plans most fresh) :
    Provisioning workspaceId fresh.appId resources plans most w where
  solvent := hsolvent
  beside := hbeside
  record app happ hid := by
    have hsame : app = fresh := Collection.eq_of_mem_of_id appIdentity happ hfresh hid
    rw [hsame]
    exact hplanned

/-- Until the row is there nothing has changed. -/
def Claiming (workspaceId appId : String) (resources : ContainerResources)
    (plans : List ProvisioningReplicaPlan) (most : Nat) (w w' : World) : Prop :=
  SameRecords w w' ∨ Provisioning workspaceId appId resources plans most w'

section Claim

variable {fresh : MasterApp}

/-- The insert makes the row, or it changes nothing and fails. -/
theorem provisioning_insert (hw : Solvent w)
    (hroom : Room fresh.workspaceId (reserve resources most) w)
    (hplanned : Planned fresh.workspaceId resources plans most fresh)
    (hcpus : 0 ≤ fresh.resources.cpus) (x : Choice) :
    Provisioning fresh.workspaceId fresh.appId resources plans most
        (respond (.apps (.insertOne fresh)) x w).2 ∨
      SameRecords w (respond (.apps (.insertOne fresh)) x w).2 ∧
        ∀ a, (respond (.apps (.insertOne fresh)) x w).1 ≠ .ok a := by
  obtain hdocs | ⟨hsame, hfailed⟩ := serveStore_insertOne_cases fresh x w.apps
  · left
    apply Provisioning.of_mem
    · exact hw.insert hdocs hroom (hplanned.charge_le hcpus) hcpus
    · have hlast : fresh ∈ w.apps.docs ++ [fresh] := by simp
      exact hdocs ▸ hlast
    · exact (hroom.beside hw.sized).insert hdocs
    · exact hplanned
  · right
    refine ⟨?_, hfailed⟩
    simp only [respond, hsame]
    exact SameRecords.refl w

/-- The revival puts the row in the place of a removed one, or it changes nothing. -/
theorem provisioning_revive (hw : Solvent w)
    (hroom : Room fresh.workspaceId (reserve resources most) w)
    (hplanned : Planned fresh.workspaceId resources plans most fresh)
    (hcpus : 0 ≤ fresh.resources.cpus)
    (hfilter : ∀ d, filter d → d.appId = fresh.appId ∧ d.state = .removed) (x : Choice) :
    Provisioning fresh.workspaceId fresh.appId resources plans most
        (respond (.apps (.replaceOne filter fresh)) x w).2 ∨
      SameRecords w (respond (.apps (.replaceOne filter fresh)) x w).2 ∧
        ∀ result, (respond (.apps (.replaceOne filter fresh)) x w).1 = .ok result →
          result.matchedCount ≠ 1 := by
  rcases serveStore_replaceOne_cases filter fresh x w.apps with
    ⟨old, hfound, hdocs⟩ | ⟨hsame, hmissed⟩
  · left
    have hremoved := (hfilter old (find?_some hfound)).2
    apply Provisioning.of_mem
    · apply hw.replace hfound _ hdocs hroom (hplanned.charge_le hcpus) hcpus
      simp [isInstalledForQuota, hremoved]
    · have hnew : fresh ∈ updateFirst filter (fun _ ↦ fresh) w.apps.docs :=
        update_mem_updateFirst hfound
      exact hdocs ▸ hnew
    · apply (hroom.beside hw.sized).update hdocs
      exact fun d _ hd ↦ ⟨(hfilter d hd).1, rfl⟩
    · exact hplanned
  · right
    constructor
    · simp only [respond, hsame]
      exact SameRecords.refl w
    · intro result hresult
      rw [hmissed result hresult]
      exact Nat.zero_ne_one

variable {w₀ : World}

theorem lasting_claiming : Lasting (Claiming workspaceId appId resources plans most w₀) := by
  intro w w' h hsame
  obtain h | h := h
  · exact .inl (h.trans hsame)
  · exact .inr (lasting_provisioning w w' h hsame)

theorem Claiming.solvent (hw₀ : Solvent w₀)
    (h : Claiming workspaceId appId resources plans most w₀ w) : Solvent w := by
  obtain h | h := h
  · exact hw₀.same h
  · exact h.solvent

/-- The start of a claim: no live row of the grant, and room for the new one. -/
structure Vacant (grant : McpDeploymentGrantPayloadV3) (resources : ContainerResources)
    (plans : List ProvisioningReplicaPlan) (most : Nat) (fresh : MasterApp) (w : World) : Prop where
  solvent : Solvent w
  room : Room fresh.workspaceId (reserve resources most) w
  planned : Planned fresh.workspaceId resources plans most fresh
  cpus : 0 ≤ fresh.resources.cpus
  appId : fresh.appId = grant.deployment.clusterAppId
  none : w.apps.docs.find? (ofGeneration fresh.workspaceId grant) = none

variable {grant : McpDeploymentGrantPayloadV3} {deploymentGrantHash : String}

theorem keeps_replacementCollides {error : JsError} :
    Keeps (cluster law) (Claiming workspaceId appId resources plans most w₀) (fun _ ↦ True)
      (replacementCollides app error) := by
  unfold replacementCollides
  split
  · trivial
  · split
    · trivial
    · exact (lasting_claiming.allows (c := .apps (.findOne _)) trivial).await.seq fun _ ↦ trivial

/-- The removed record whose place a revival takes. -/
def isTombstoneOf (app candidate : MasterApp) : Bool :=
  candidate.appId == app.appId && candidate.state == .removed

/-- What an attempt to write the row has come to. -/
def Attempted {β : Type} (fresh : MasterApp) (resources : ContainerResources)
    (plans : List ProvisioningReplicaPlan) (most : Nat) (w₀ : World) (counts : β → Prop)
    (r : Except JsError β) (w : World) : Prop :=
  Provisioning fresh.workspaceId fresh.appId resources plans most w ∨
    SameRecords w₀ w ∧ ∀ a, r = .ok a → ¬ counts a

theorem Attempted.claiming {β : Type} {counts : β → Prop} {r : Except JsError β}
    (h : Attempted fresh resources plans most w₀ counts r w) :
    Claiming fresh.workspaceId fresh.appId resources plans most w₀ w :=
  h.elim .inr fun h ↦ .inl h.1

theorem attempted_revive (hvacant : Vacant grant resources plans most fresh w₀)
    (hw : Claiming fresh.workspaceId fresh.appId resources plans most w₀ w) (x : Choice) :
    Attempted fresh resources plans most w₀ (fun result : UpdateResult ↦ result.matchedCount = 1)
      (respond (.apps (.replaceOne (isTombstoneOf fresh) fresh)) x w).1
      (respond (.apps (.replaceOne (isTombstoneOf fresh) fresh)) x w).2 := by
  have hfilter : ∀ d, isTombstoneOf fresh d → d.appId = fresh.appId ∧ d.state = .removed := by
    intro d hd
    rwa [isTombstoneOf, Bool.and_eq_true, beq_iff_eq, beq_iff_eq] at hd
  obtain hsame | hprovisioning := hw
  · have hroom := hvacant.room.same hvacant.solvent.sized hsame
    rcases provisioning_revive (hvacant.solvent.same hsame) hroom hvacant.planned hvacant.cpus
      hfilter x with h | ⟨hunchanged, hmissed⟩
    · exact .inl h
    · exact .inr ⟨hsame.trans hunchanged, hmissed⟩
  · left
    rcases serveStore_replaceOne_cases (isTombstoneOf fresh) fresh x w.apps with
      ⟨old, _, hdocs⟩ | ⟨hsame, _⟩
    · apply hprovisioning.update hdocs
      · exact fun d hd ↦ ⟨(hfilter d hd).1, rfl⟩
      · exact fun _ _ _ ↦ hvacant.planned
    · simp only [respond, hsame]
      exact hprovisioning

theorem reaches_reviveTombstone (hvacant : Vacant grant resources plans most fresh w₀)
    (hw : Claiming fresh.workspaceId fresh.appId resources plans most w₀ w) :
    Reaches law (fun result w' ↦ Attempted fresh resources plans most w₀
        (fun result : UpdateResult ↦ result.matchedCount = 1) (.ok result) w')
      (reviveTombstone fresh) w := by
  have hsolvent : ∀ w, Claiming fresh.workspaceId fresh.appId resources plans most w₀ w → Solvent w :=
    fun _ h ↦ h.solvent hvacant.solvent
  have hrevive : Reaches law (Attempted fresh resources plans most w₀
      fun result : UpdateResult ↦ result.matchedCount = 1)
      (Apps.replaceOne (isTombstoneOf fresh) fresh).settle w :=
    reaches_settle (.apps (.replaceOne (isTombstoneOf fresh) fresh))
      (fun x ↦ hsolvent _ (attempted_revive hvacant hw x).claiming) (attempted_revive hvacant hw)
  apply reaches_bind hrevive
  intro revived w₁ hw₁ hattempted
  cases revived with
  | ok result => exact reaches_pure hw₁ hattempted
  | error error =>
    dsimp only
    split
    · apply reaches_bind (reaches_of_keeps hsolvent keeps_replacementCollides hattempted.claiming)
      exact fun _ _ hw₂ _ ↦ reaches_throw hw₂
    · exact reaches_throw hw₁

/-- A live row that is found after the attempts is the one they made. -/
theorem reaches_findGeneration (hvacant : Vacant grant resources plans most fresh w₀)
    (hw : Claiming fresh.workspaceId fresh.appId resources plans most w₀ w) :
    Reaches law (fun found w' ↦ ∀ app, found = some app →
        Provisioning fresh.workspaceId fresh.appId resources plans most w' ∧
          Planned fresh.workspaceId resources plans most app ∧ app.appId = fresh.appId)
      (findGeneration fresh.workspaceId grant) w := by
  have hsolvent := hw.solvent hvacant.solvent
  have hread : Reaches law (fun found w' ↦ SameRecords w w' ∧
      found = w.apps.docs.find? (ofGeneration fresh.workspaceId grant))
      (findGeneration fresh.workspaceId grant) w :=
    reaches_of_keeps (fun _ h ↦ hsolvent.same h) leaves_findOne (SameRecords.refl w)
  apply hread.imp
  intro r w' hr
  refine ⟨hr.1, ?_⟩
  intro found hfound app happ
  obtain ⟨hsame, hlooked⟩ := hr.2 found hfound
  rw [happ] at hlooked
  obtain hunchanged | hprovisioning := hw
  · rw [hunchanged.apps, hvacant.none] at hlooked
    cases hlooked
  · have hstored := mem_of_find?_eq_some hlooked.symm
    have hmatch := find?_some hlooked.symm
    have hid : app.appId = fresh.appId := by
      simp only [ofGeneration, Bool.and_eq_true, beq_iff_eq] at hmatch
      rw [hmatch.1.2, hvacant.appId]
    exact ⟨lasting_provisioning w w' hprovisioning hsame, hprovisioning.record app hstored hid, hid⟩

/-- A claim that succeeds ends with the row in provisioning. -/
theorem reaches_claimRow (hvacant : Vacant grant resources plans most fresh w) :
    Reaches law (fun app w' ↦ Provisioning fresh.workspaceId fresh.appId resources plans most w' ∧
        Planned fresh.workspaceId resources plans most app ∧ app.appId = fresh.appId)
      (claimRow fresh.workspaceId grant deploymentGrantHash fresh) w := by
  have hinsert : Reaches law (Attempted fresh resources plans most w fun _ : Unit ↦ True)
      (Apps.insertOne fresh).settle w := by
    have hattempted : ∀ x, Attempted fresh resources plans most w (fun _ : Unit ↦ True)
        (respond (.apps (.insertOne fresh)) x w).1 (respond (.apps (.insertOne fresh)) x w).2 := by
      intro x
      rcases provisioning_insert hvacant.solvent hvacant.room hvacant.planned hvacant.cpus x with
        h | ⟨hsame, hfailed⟩
      · exact .inl h
      · exact .inr ⟨hsame, fun a ha ↦ absurd ha (hfailed a)⟩
    exact reaches_settle (.apps (.insertOne fresh))
      (fun x ↦ (hattempted x).claiming.solvent hvacant.solvent) hattempted
  apply reaches_bind hinsert
  intro inserted w₁ hw₁ hinserted
  cases inserted with
  | ok _ =>
    apply reaches_pure hw₁
    have hprovisioning := hinserted.elim id fun h ↦ absurd trivial (h.2 _ rfl)
    exact ⟨hprovisioning, hvacant.planned, rfl⟩
  | error error =>
    dsimp only
    split
    · exact reaches_throw hw₁
    · split
      · exact reaches_throw hw₁
      · apply reaches_bind (reaches_reviveTombstone hvacant hinserted.claiming)
        intro revived w₂ hw₂ hrevived
        split
        next hcount =>
          apply reaches_pure hw₂
          have hprovisioning := hrevived.elim id fun h ↦ absurd hcount (h.2 _ rfl)
          exact ⟨hprovisioning, hvacant.planned, rfl⟩
        · apply reaches_bind (reaches_findGeneration hvacant hrevived.claiming)
          intro concurrent w₃ hw₃ hconcurrent
          cases concurrent with
          | none => exact reaches_throw hw₃
          | some concurrent =>
            apply reaches_bind (R := fun _ ↦ Provisioning fresh.workspaceId fresh.appId resources
              plans most)
            · unfold assertMcpV3AppAffinity Program.throwIf
              split
              · exact reaches_throw hw₃
              · exact reaches_pure hw₃ (hconcurrent concurrent rfl).1
            · exact fun _ w₄ hw₄ hprovisioning ↦
                reaches_pure hw₄ ⟨hprovisioning, (hconcurrent concurrent rfl).2⟩

end Claim

end

/-! ## The deployment of a grant -/

section Deployment

variable {α : Type} {law : Law} {workspaceId : String} {w : World} {deps : DeploymentDeps}
  {grant : McpDeploymentGrantPayloadV3} {deploymentGrantHash : String} {hubIdentity : HubIdentity}

/-- The row of the grant is there to be provisioned. -/
def HasRow (workspaceId : String) (grant : McpDeploymentGrantPayloadV3) (app : MasterApp)
    (w : World) : Prop :=
  app.appId = grant.deployment.clusterAppId ∧ ∃ resources plans most,
    Planned workspaceId resources plans most app ∧
      Provisioning workspaceId grant.deployment.clusterAppId resources plans most w

theorem leaves_chooseLabel :
    Leaves law w (fun _ ↦ True) (chooseLabel deps workspaceId input grant) := by
  unfold chooseLabel
  split
  · trivial
  · split
    · trivial
    · exact (leaves_call (c := .service (.allocateSubdomain _ _)) trivial).seq fun _ ↦ trivial

theorem leaves_planReplica {node : MasterNode} : Leaves law w (fun _ ↦ True) (planReplica node) :=
  (meets_randomUUID plain).seq fun _ ↦ (meets_randomUUID plain).seq fun _ ↦ trivial

theorem stays_createRow (hw : Solvent w) (hcpus : 0 ≤ input.resources.cpus)
    (hnone : w.apps.docs.find? (ofGeneration workspaceId grant) = none)
    (hf : ∀ app w₁, Solvent w₁ → HasRow workspaceId grant app w₁ → Stays law (f app) w₁) :
    Stays law (createRow deps workspaceId grant deploymentGrantHash input >>= f) w := by
  unfold createRow
  rw [Program.bind_assoc]
  apply stays_place hw
  intro selected w₁ hselected hsame₁ hroom
  have hw₁ := hw.same hsame₁
  rw [Program.bind_assoc]
  apply stays_now hw₁
  intro w₂ hsame₂ hw₂
  rw [Program.bind_assoc]
  apply stays_then leaves_chooseLabel hw₂
  intro subdomain w₃ _ hsame₃ hw₃
  rw [Program.bind_assoc]
  have hplans : Leaves law w₃ (fun plans ↦ plans.length = selected.length)
      (Program.mapEach planReplica selected) :=
    Meets.mapEach_length fun _ _ ↦ leaves_planReplica
  apply stays_then hplans hw₃
  intro plans w₄ hlength hsame₄ hw₄
  have hlater := (hsame₂.trans hsame₃).trans hsame₄
  have hvacant : ∀ sealed label uiUrl time, Vacant grant input.resources plans input.replicaCount
      (v3RecordOf workspaceId grant deploymentGrantHash input sealed label uiUrl plans time) w₄ := by
    intro sealed label uiUrl time
    refine ⟨hw₄, hroom.same hw₁.sized hlater, ⟨rfl, rfl, rfl, ?_⟩, hcpus, rfl, ?_⟩
    · apply le_trans (b := 0 + plans.length)
      · exact Nat.add_le_add_left (length_filter_le _ _) 0
      · omega
    · rw [(hsame₁.trans hlater).apps]
      exact hnone
  apply stays_bind (reaches_claimRow (hvacant _ _ _ _))
  intro app w₅ hw₅ hrow
  obtain ⟨hprovisioning, hplanned, hid⟩ := hrow
  exact hf app w₅ hw₅ ⟨hid, _, _, _, hplanned, hprovisioning⟩

theorem stays_obtainRow (hw : Solvent w) (hcpus : 0 ≤ input.resources.cpus)
    (hfits : ∀ app, w.apps.docs.find? (ofGeneration workspaceId grant) = some app →
      FitsBeside workspaceId app.appId app.resources (plannedReplicas app) w)
    (hf : ∀ app w₁, Solvent w₁ → HasRow workspaceId grant app w₁ → Stays law (f app) w₁) :
    Stays law (obtainRow deps workspaceId grant deploymentGrantHash input >>= f) w := by
  unfold obtainRow
  rw [Program.bind_assoc]
  apply stays_then leaves_findOne hw
  intro existing w₁ hfound hsame₁ hw₁
  cases existing with
  | none =>
    apply stays_createRow hw₁ hcpus _ hf
    rw [hsame₁.apps]
    exact hfound.symm
  | some app =>
    rw [Program.bind_assoc]
    apply stays_throwIf hw₁
    intro _
    apply hf app w₁ hw₁
    have hmatch : ofGeneration workspaceId grant app := find?_some hfound.symm
    simp only [ofGeneration, Bool.and_eq_true, beq_iff_eq] at hmatch
    have hid := hmatch.1.2
    have hplanned : Planned workspaceId app.resources (app.mcpProvisioningReplicas.getD [])
        (plannedReplicas app) app := ⟨hmatch.1.1.1.1, rfl, rfl, le_refl _⟩
    refine ⟨hid, _, _, _, hplanned, ?_⟩
    rw [← hid]
    apply Provisioning.of_mem hw₁ _ _ hplanned
    · rw [hsame₁.apps]
      exact mem_of_find?_eq_some hfound.symm
    · exact fitsBeside_iff.mp ((hfits app hfound.symm).same hw.sized hsame₁)

theorem deployMcpV3_stays (hw : Solvent w)
    (hfits : ∀ app, w.apps.docs.find? (ofGeneration workspaceId grant) = some app →
      FitsBeside workspaceId app.appId app.resources (plannedReplicas app) w) :
    Stays law (deployMcpV3 deps workspaceId grant deploymentGrantHash hubIdentity) w := by
  apply stays_ofExcept hw
  intro input hinput
  apply stays_throwIf hw
  intro _
  apply stays_throwIf hw
  intro _
  apply stays_lock hw
  intro w₁ hsame₁ hw₁
  apply stays_obtainRow hw₁ (cpus_of_parse hinput)
  · intro app happ
    rw [hsame₁.apps] at happ
    exact (hfits app happ).same hw.sized hsame₁
  · intro app w₂ hw₂ hrow
    obtain ⟨hid, resources, plans, most, hplanned, hprovisioning⟩ := hrow
    have hallows : AllowsProvision law
        (.keep (Provisioning workspaceId grant.deployment.clusterAppId resources plans most))
        (knownPlanned workspaceId grant.deployment.clusterAppId resources plans most) (fun _ ↦ True)
        deps workspaceId grant deploymentGrantHash hubIdentity := allows_provision
    have hknown : RowOf (knownPlanned workspaceId grant.deployment.clusterAppId resources plans most)
        workspaceId grant app :=
      ⟨fun _ ↦ hplanned, byId_iff.mpr ⟨hid, hplanned.workspaceId⟩⟩
    apply stays_of_keeps (P := fun _ ↦ True) (fun _ h ↦ h.solvent) _ hprovisioning
    apply (meets_openInventory hallows.looks hallows.inventories).seq
    intro inventory
    apply Meets.throwIf.bind
    intro _ _
    apply Meets.bind (hallows.looks.nodes _).await
    intro nodes _
    apply Meets.throwIf.bind
    intro _ _
    exact provision_meets hallows ⟨rfl, rfl, rfl, rfl, rfl, fun _ _ ↦ trivial⟩ hknown |>.imp
      fun _ _ ↦ trivial

end Deployment

end Quota

end PrivosCluster
