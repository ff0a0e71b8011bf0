import PrivosCluster.Master.WorkspaceQuota

/-!
# The operations and the quota

An operation reads, asks agents and waits, and now and then it writes a record. Between its writes
the records stay as they are, so what it has read of them is still so when it writes.
-/

namespace PrivosCluster

open AsyncProgram DocumentStore

/-- The call writes no record of an app or a workspace. -/
def Call.IsRecordless : Call → Prop
  | .apps op => op.IsRead
  | .workspaces op => op.IsRead
  | _ => True

variable {c : Call} {app : MasterApp} {filter : MasterApp → Bool} {update : MasterApp → MasterApp}
  {f : Unit → Async α} {resources : ContainerResources}

theorem Call.IsQuiet.isRecordless (hc : c.IsQuiet) : c.IsRecordless := by
  cases c <;> first | exact hc | trivial

namespace Quota

theorem respond_sameRecords (hc : c.IsRecordless) (x : Choice) (w : World) :
    SameRecords w (respond c x w).2 := by
  cases c with
  | apps op | workspaces op =>
    simp only [respond, serveStore_of_isRead hc]
    exact SameRecords.refl w
  | service => exact ⟨rfl, rfl, Int.le_add_of_nonneg_right (Int.natCast_nonneg _)⟩
  | _ => exact ⟨rfl, rfl, Int.le_refl _⟩

/-! ## Between the writes -/

/-- A condition that only writes of records and time going back could end. -/
def Lasting (I : World → Prop) : Prop := ∀ w w', I w → SameRecords w w' → I w'

section Lasting

variable {law : Law} {I : World → Prop}

theorem Lasting.allows (hI : Lasting I) (hc : c.IsRecordless) :
    Allows law (.keep I) c fun _ ↦ True :=
  fun x w hw _ ↦ ⟨hI w _ hw (respond_sameRecords hc x w), fun _ _ ↦ trivial⟩

theorem Lasting.reads (hI : Lasting I) {K : Known} (happ : ∀ w, I w → ∀ app ∈ w.apps.docs, K.app app)
    (hnode : ∀ node, K.node node)
    (hworkspace : ∀ w, I w → ∀ workspace ∈ w.workspaces.docs, K.workspace workspace) :
    Reads law (.keep I) K :=
  Reads.of (fun _ _ _ hw hquiet ↦ hI _ _ hw (.of_quiet hquiet)) (fun _ w hw ↦ happ w hw)
    (fun _ _ _ node _ ↦ hnode node) fun _ w hw ↦ hworkspace w hw

/-- Reads of which nothing is said. -/
theorem Lasting.looks (hI : Lasting I) :
    Reads law (.keep I) ⟨fun _ ↦ True, fun _ ↦ True, fun _ ↦ True⟩ :=
  hI.reads (fun _ _ _ _ ↦ trivial) (fun _ ↦ trivial) fun _ _ _ _ ↦ trivial

theorem Lasting.commands (hI : Lasting I) {K : Known} {owner : String}
    {command : AppReplica → AgentRequest} : AllowsCommands law (.keep I) K owner app command :=
  fun _ _ _ _ _ ↦ hI.allows trivial

end Lasting

theorem lasting_sameRecords {w : World} : Lasting (SameRecords w) := fun _ _ ↦ SameRecords.trans

theorem lasting_solvent : Lasting Solvent := fun _ _ ↦ Solvent.same

/-- The program leaves the records of a state as they are, and what it returns satisfies `P`. -/
abbrev Leaves {α : Type} (law : Law) (w : World) (P : α → Prop) (p : Async α) : Prop :=
  Keeps (cluster law) (SameRecords w) P p

/-- What is read in the state. -/
def known (w : World) : Known where
  app app := app ∈ w.apps.docs
  node _ := True
  workspace workspace := workspace ∈ w.workspaces.docs

section Leaves

variable {law : Law} {w : World}

theorem leaves_call (hc : c.IsRecordless) : Leaves law w (fun _ ↦ True) (awaitCall c) :=
  (lasting_sameRecords.allows hc).await

theorem reads : Reads law (.keep (SameRecords w)) (known w) := by
  apply lasting_sameRecords.reads
  · intro w' hw app happ
    rwa [hw.apps] at happ
  · exact fun _ ↦ trivial
  · intro w' hw workspace hworkspace
    rwa [hw.workspaces] at hworkspace

theorem plain : AllowsPlain law (.keep (SameRecords w)) := reads.plain

theorem leaves_findWorkspace {filter : MasterWorkspace → Bool} :
    Leaves law w (fun found ↦ ∀ workspace, found = some workspace →
      filter workspace ∧ workspace ∈ w.workspaces.docs) (Workspaces.findOne filter) := by
  apply Allows.await (c := .workspaces (.findOne filter))
  intro x w' hw _
  have hsame : SameRecords w w' := hw
  refine ⟨hsame.trans (respond_sameRecords (c := .workspaces (.findOne filter)) trivial x w'), ?_⟩
  intro found hfound
  exact findOne_known (fun workspace hworkspace ↦ hsame.workspaces ▸ hworkspace) hfound

theorem leaves_find :
    Leaves law w (fun found ↦ found = w.apps.docs.filter filter) (Apps.find filter) := by
  apply Allows.await (c := .apps (.find filter))
  intro x w' hw _
  have hsame : SameRecords w w' := hw
  refine ⟨hsame.trans (respond_sameRecords (c := .apps (.find filter)) trivial x w'), ?_⟩
  intro found hfound
  simp only [respond, serveStore_find] at hfound
  split at hfound
  · rw [hsame.apps] at hfound
    exact (Except.ok.inj hfound).symm
  · cases hfound

/-- What a query finds, it finds in the state. -/
theorem leaves_findOne :
    Leaves law w (fun found ↦ found = w.apps.docs.find? filter) (Apps.findOne filter) := by
  apply Allows.await (c := .apps (.findOne filter))
  intro x w' hw _
  have hsame : SameRecords w w' := hw
  refine ⟨hsame.trans (respond_sameRecords (c := .apps (.findOne filter)) trivial x w'), ?_⟩
  intro found hfound
  simp only [respond, serveStore_findOne] at hfound
  split at hfound
  · rw [hsame.apps] at hfound
    exact (Except.ok.inj hfound).symm
  · cases hfound

end Leaves

/-- An update in the store, whether it takes effect or not. -/
theorem Solvent.updateOne {w : World} (hw : Solvent w) (x : Choice)
    (hupdate : ∀ app ∈ w.apps.docs, filter app → Affordable w app (update app)) :
    Solvent (respond (.apps (.updateOne filter update)) x w).2 := by
  obtain hdocs | hdocs := docs_serveStore_updateOne filter update x w.apps
  · have hsame : (serveStore (.updateOne filter update) x w.apps).2 = w.apps := by
      generalize (serveStore (.updateOne filter update) x w.apps).2 = apps at hdocs
      cases apps
      cases hdocs
      rfl
    simp only [respond, hsame]
    exact hw
  · exact hw.update hdocs hupdate

/-! ## Programs that keep within the quotas -/

/-- Every call leaves the workspaces solvent, and so does the end. -/
abbrev Stays {α : Type} (law : Law) (p : Async α) (w : World) : Prop :=
  wp (cluster law) (fun c x w ↦ Solvent (respond c x w).2) (fun _ w' ↦ Solvent w') p w

section Stays

variable {α β : Type} {law : Law} {w : World}

variable {p : Async α}

/-- A program that writes no record, then the rest. -/
theorem stays_then {P : α → Prop} {f : α → Async β} (hp : Leaves law w P p) (hw : Solvent w)
    (hf : ∀ a w₁, P a → SameRecords w w₁ → Solvent w₁ → Stays law (f a) w₁) :
    Stays law (p >>= f) w := by
  have hends : wp (cluster law) (fun c x w ↦ Solvent (respond c x w).2)
      (fun r w₁ ↦ SameRecords w w₁ ∧ ∀ a, r = .ok a → P a) p w :=
    wp_mono (fun _ _ _ h ↦ hw.same h) (fun _ _ h ↦ h) (Keeps.wp hp (SameRecords.refl w))
  apply hends.bind
  · intro a w₁ ha
    exact hf a w₁ (ha.2 a rfl) ha.1 (hw.same ha.1)
  · intro e w₁ he
    exact hw.same he.1

theorem stays_of_leaves {P : α → Prop} (hp : Leaves law w P p) (hw : Solvent w) : Stays law p w :=
  wp_mono (fun _ _ _ h ↦ hw.same h) (fun _ _ h ↦ hw.same h.1) (Keeps.wp hp (SameRecords.refl w))

/-- A program that keeps an invariant under which the quotas hold. -/
theorem stays_of_keeps {I : World → Prop} {P : α → Prop} (hI : ∀ w, I w → Solvent w)
    (hp : Keeps (cluster law) I P p) (hw : I w) : Stays law p w :=
  wp_mono (fun _ _ _ h ↦ hI _ h) (fun _ _ h ↦ hI _ h.1) (Keeps.wp hp hw)

theorem stays_throwIf {c : Prop} [Decidable c] {e : JsError} (hw : Solvent w)
    (hf : ¬ c → Stays law (f ()) w) : Stays law (Program.throwIf c e >>= f) w := by
  unfold Program.throwIf
  split
  · exact hw
  next hc => exact hf hc

theorem stays_ofExcept {r : Except JsError α} {f : α → Async β} (hw : Solvent w)
    (hf : ∀ a, r = .ok a → Stays law (f a) w) :
    Stays law (Program.ofExcept r >>= f) w := by
  cases r with
  | ok a => exact hf a rfl
  | error e => exact hw

theorem stays_lock {lock : String} (hw : Solvent w)
    (hp : ∀ w₁, SameRecords w w₁ → Solvent w₁ → Stays law p w₁) :
    Stays law (withWorkspaceLock lock p) w := by
  apply stays_then (leaves_call (c := .acquire lock) trivial) hw
  intro _ w₁ _ hsame hw₁
  apply wp_finallyDo.mpr
  apply (hp w₁ hsame hw₁).imp
  intro r w₂ hw₂
  apply (stays_of_leaves (leaves_call (c := .release lock) trivial) hw₂).imp
  intro r' w₃ hw₃
  cases r' <;> exact hw₃

/-- One call that leaves the workspaces solvent whatever it meets, then the rest. -/
theorem stays_await (c : Call) {f : c.Answer → Async α}
    (hc : ∀ x, Solvent (respond c x w).2)
    (hf : ∀ x a, (respond c x w).1 = .ok a →
      Stays law (f a) (respond c x w).2) :
    Stays law (awaitCall c >>= f) w := by
  refine wp_bind.mpr (wp_ask.mpr fun x _ ↦ ⟨hc x, ?_⟩)
  cases hanswer : (respond c x w).1 with
  | ok a =>
    simp only [cluster, hanswer, andThen_ok]
    exact hf x a hanswer
  | error e =>
    simp only [cluster, hanswer, andThen_error]
    exact hc x

/-- A write of a record, then the rest. -/
theorem stays_updateOne {f : UpdateResult → Async α} (hw : Solvent w)
    (hupdate : ∀ app ∈ w.apps.docs, filter app → Affordable w app (update app))
    (hf : ∀ r w₁, Solvent w₁ → Stays law (f r) w₁) :
    Stays law (Apps.updateOne filter update >>= f) w := by
  have hafter : ∀ x, Solvent (respond (.apps (.updateOne filter update)) x w).2 :=
    fun x ↦ hw.updateOne x hupdate
  exact stays_await (.apps (.updateOne filter update)) hafter fun x r _ ↦ hf r _ (hafter x)

/-- A write of one record that is in the store, then the rest. -/
theorem stays_updateApp {f : UpdateResult → Async α} (hw : Solvent w) (happ : app ∈ w.apps.docs)
    (hfilter : ∀ d, filter d → d.appId = app.appId) (hpaid : Affordable w app (update app))
    (hf : ∀ r w₁, Solvent w₁ → Stays law (f r) w₁) :
    Stays law (Apps.updateOne filter update >>= f) w := by
  apply stays_updateOne hw _ hf
  intro d hd hmatch
  have hsame : d = app := Collection.eq_of_mem_of_id appIdentity hd happ (hfilter d hmatch)
  rw [hsame]
  exact hpaid

/-- A new record, then the rest. -/
theorem stays_insertOne {more : Int × Int × Rat} (hw : Solvent w)
    (hroom : Room app.workspaceId more w) (hcharge : charge app.workspaceId w.clock app ≤ more)
    (hcpus : 0 ≤ app.resources.cpus) (hf : ∀ w₁, Solvent w₁ → Stays law (f ()) w₁) :
    Stays law (Apps.insertOne app >>= f) w := by
  have hafter : ∀ x, Solvent (respond (.apps (.insertOne app)) x w).2 := ?_
  · exact stays_await (.apps (.insertOne app)) hafter fun x _ _ ↦ hf _ (hafter x)
  intro x
  by_cases hclash : x.fault = .refused ∨ ¬ ((w.apps.docs ++ [app]).flatMap appKeys).Nodup
  · simp only [respond, serveStore_insertOne_of_clash hclash]
    exact hw
  · rw [not_or, not_not] at hclash
    simp only [respond, serveStore_insertOne_of_unique hclash.1 hclash.2]
    exact hw.insert rfl hroom hcharge hcpus

/-- What is returned satisfies `Q` in the state it is returned in. -/
abbrev Reaches {α : Type} (law : Law) (Q : α → World → Prop) (p : Async α) (w : World) : Prop :=
  wp (cluster law) (fun c x w ↦ Solvent (respond c x w).2)
    (fun r w' ↦ Solvent w' ∧ ∀ a, r = .ok a → Q a w') p w

theorem reaches_throw {Q : α → World → Prop} {e : JsError} (hw : Solvent w) :
    Reaches law Q (Program.throw e) w :=
  ⟨hw, nofun⟩

theorem reaches_pure {Q : α → World → Prop} {a : α} (hw : Solvent w) (ha : Q a w) :
    Reaches law Q (Program.pure a) w :=
  ⟨hw, fun _ h ↦ Except.ok.inj h ▸ ha⟩

theorem reaches_bind {R : α → World → Prop} {Q : β → World → Prop} {f : α → Async β}
    (hp : Reaches law R p w) (hf : ∀ a w₁, Solvent w₁ → R a w₁ → Reaches law Q (f a) w₁) :
    Reaches law Q (p >>= f) w := by
  apply wp.bind hp
  · exact fun a w₁ h ↦ hf a w₁ h.1 (h.2 a rfl)
  · exact fun e w₁ h ↦ ⟨h.1, nofun⟩

theorem stays_bind {R : α → World → Prop} {f : α → Async β} (hp : Reaches law R p w)
    (hf : ∀ a w₁, Solvent w₁ → R a w₁ → Stays law (f a) w₁) : Stays law (p >>= f) w := by
  apply wp.bind hp
  · exact fun a w₁ h ↦ hf a w₁ h.1 (h.2 a rfl)
  · exact fun e w₁ h ↦ h.1

theorem reaches_of_keeps {I : World → Prop} {P : α → Prop} (hI : ∀ w, I w → Solvent w)
    (hp : Keeps (cluster law) I P p) (hw : I w) : Reaches law (fun a w' ↦ I w' ∧ P a) p w :=
  wp_mono (fun _ _ _ h ↦ hI _ h) (fun _ _ h ↦ ⟨hI _ h.1, fun a ha ↦ ⟨h.1, h.2 a ha⟩⟩)
    (Keeps.wp hp hw)

theorem reaches_settle (c : Call) {Q : Except JsError c.Answer → World → Prop}
    (hc : ∀ x, Solvent (respond c x w).2) (hQ : ∀ x, Q (respond c x w).1 (respond c x w).2) :
    Reaches law Q (awaitCall c).settle w := by
  apply wp_settle.mpr
  apply wp_ask.mpr
  intro x _
  exact ⟨hc x, hc x, fun _ h ↦ Except.ok.inj h ▸ hQ x⟩

end Stays

/-! ## The checks -/

section Checks

variable {α : Type} {law : Law} {workspaceId : String} {w : World}

theorem stays_now {f : Time → Async α} (hw : Solvent w)
    (hf : ∀ w₁, SameRecords w w₁ → Solvent w₁ →
      Stays law (f w₁.clock) w₁) :
    Stays law (now >>= f) w := by
  have hsame : ∀ x, SameRecords w (respond (.service .now) x w).2 :=
    fun x ↦ respond_sameRecords (c := .service .now) trivial x w
  apply stays_await (.service .now) fun x ↦ hw.same (hsame x)
  intro x time htime
  rw [← Except.ok.inj htime]
  exact hf _ (hsame x) (hw.same (hsame x))

/-- What the checks count is what is installed at some time between. -/
theorem stays_installedApps {f : MasterWorkspace × List MasterApp → Async α}
    (hw : Solvent w)
    (hf : ∀ workspace w₁ w₂, SameRecords w w₁ → SameRecords w₁ w₂ →
      workspace ∈ w₁.workspaces.docs → workspace.workspaceId = workspaceId →
      Stays law (f (workspace, installedIn workspaceId w₁)) w₂) :
    Stays law (installedApps workspaceId >>= f) w := by
  unfold installedApps
  rw [Program.bind_assoc]
  apply stays_now hw
  intro w₁ hsame₁ hw₁
  rw [Program.bind_assoc]
  have hworkspace : Leaves law w₁ (fun found ↦ ∀ workspace, found = some workspace →
      workspace ∈ w₁.workspaces.docs ∧ workspace.workspaceId = workspaceId)
      (Workspaces.findOne fun workspace ↦
        workspace.workspaceId == workspaceId && workspace.status == .active) := by
    apply leaves_findWorkspace.imp
    intro found hfound workspace hsome
    obtain ⟨hfilter, hstored⟩ := hfound workspace hsome
    rw [Bool.and_eq_true, beq_iff_eq] at hfilter
    exact ⟨hstored, hfilter.1⟩
  have hcandidates : Leaves law w₁
      (fun candidates ↦ candidates.filter (isInstalledForQuota · w₁.clock) = installedIn workspaceId w₁)
      (Apps.find fun app ↦
        app.workspaceId == workspaceId && installedCandidateStates.contains app.state) := by
    apply leaves_find.imp
    rintro candidates rfl
    rw [List.filter_filter]
    apply List.filter_congr
    intro app _
    cases hstate : app.state <;>
      simp [isInstalledForQuota, installedCandidateStates, hstate, Bool.and_comm]
  apply stays_then (meets_promiseBoth plain hworkspace hcandidates) hw₁
  intro found w₂ hfound hsame₂ hw₂
  obtain ⟨workspace, candidates⟩ := found
  obtain ⟨hworkspace, hinstalled⟩ := hfound
  cases workspace with
  | none => exact hw₂
  | some workspace =>
    obtain ⟨hstored, hid⟩ := hworkspace workspace rfl
    dsimp only at hinstalled ⊢
    rw [hinstalled]
    exact hf workspace w₁ w₂ hsame₁ hsame₂ hstored hid

theorem stays_assertWithin {quota : WorkspaceQuota} {wanted : Usage} (hw : Solvent w)
    (hf : wanted.memoryMb ≤ quota.maxMemoryMb → wanted.cpus ≤ quota.maxCpus →
      Stays law (f ()) w) : Stays law (assertWithin quota wanted >>= f) w := by
  unfold assertWithin
  rw [Program.bind_assoc]
  apply stays_throwIf hw
  intro hmemory
  apply stays_throwIf hw
  intro hcpus
  exact hf (Int.not_lt.mp hmemory) (not_lt.mp hcpus)

/-- A deployment goes on with room for one more app. -/
theorem stays_assertDeployAllowed {replicaCount : Nat} (hw : Solvent w)
    (hf : ∀ w₁, SameRecords w w₁ → Room workspaceId (reserve resources replicaCount) w₁ →
      Stays law (f ()) w₁) :
    Stays law (assertDeployAllowed workspaceId resources replicaCount >>= f) w := by
  unfold assertDeployAllowed
  rw [Program.bind_assoc]
  apply stays_installedApps hw
  intro workspace w₁ w₂ hsame₁ hsame₂ hstored hid
  have hw₂ := hw.same (hsame₁.trans hsame₂)
  rw [Program.bind_assoc]
  apply stays_throwIf hw₂
  intro happs
  apply stays_assertWithin hw₂
  intro hmemory hcpus
  apply hf w₂ (hsame₁.trans hsame₂)
  have hcount : ((installedIn workspaceId w₁).length : Int) + 1 ≤ workspace.quota.maxApps := by
    omega
  exact (room_of_within hstored hid ⟨hcount, hmemory, hcpus⟩).same (hw.sized.same hsame₁) hsame₂

/-- The check of a change to an installed app: what more is wanted has room. -/
theorem stays_assertMore {more : Usage} (hw : Solvent w)
    (hf : ∀ w₁, SameRecords w w₁ → Room workspaceId (measure 0 more) w₁ →
      Stays law (f ()) w₁) :
    Stays law ((do
      let (workspace, installed) ← installedApps workspaceId
      assertWithin workspace.quota ((used installed).add more)) >>= f) w := by
  rw [Program.bind_assoc]
  apply stays_installedApps hw
  intro workspace w₁ w₂ hsame₁ hsame₂ hstored hid
  apply stays_assertWithin (hw.same (hsame₁.trans hsame₂))
  intro hmemory hcpus
  apply hf w₂ (hsame₁.trans hsame₂)
  have hwithin := (hw.same hsame₁).within workspaceId workspace hstored hid
  have hcount : ((installedIn workspaceId w₁).length : Int) + 0 ≤ workspace.quota.maxApps := by
    exact hwithin.apps
  exact (room_of_within hstored hid ⟨hcount, hmemory, hcpus⟩).same (hw.sized.same hsame₁) hsame₂

theorem length_selectFrom {active : List MasterNode} {storageBytes : Nat} {error : JsError}
    {replicas : Nat} {reservations : List Scheduler.NodeReservation}
    {selected nodes : List MasterNode}
    (h : Scheduler.selectFrom active resources storageBytes error replicas reservations selected =
      .ok nodes) : nodes.length = selected.length + replicas := by
  induction replicas generalizing reservations selected with
  | zero =>
    cases h
    rfl
  | succ replicas ih =>
    unfold Scheduler.selectFrom at h
    split at h
    · cases h
    · have hlength := ih h
      rw [List.length_append, List.length_singleton] at hlength
      omega

/-- The checks before a fresh deployment end with room for it, and a node for each replica. -/
theorem stays_place {input : DeployInput} {f : List MasterNode → Async α}
    (hw : Solvent w)
    (hf : ∀ nodes w₁, nodes.length = input.replicaCount → SameRecords w w₁ →
      Room workspaceId (reserve input.resources input.replicaCount) w₁ →
      Stays law (f nodes) w₁) :
    Stays law (Deployment.place workspaceId input >>= f) w := by
  unfold Deployment.place
  rw [Program.bind_assoc]
  apply stays_throwIf hw
  intro _
  rw [Program.bind_assoc]
  apply stays_assertDeployAllowed hw
  intro w₁ hsame₁ hroom
  have hw₁ := hw.same hsame₁
  rw [Program.bind_assoc]
  apply stays_then (meets_loadFleet plain) hw₁
  intro fleet w₂ _ hsame₂ hw₂
  apply stays_ofExcept hw₂
  intro nodes hnodes
  apply hf nodes w₂ _ (hsame₁.trans hsame₂) (hroom.same hw₁.sized hsame₂)
  have hlength := length_selectFrom hnodes
  simpa using hlength

end Checks

end Quota

end PrivosCluster
