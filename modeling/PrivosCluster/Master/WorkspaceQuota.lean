import Mathlib.Algebra.Order.Monoid.Prod
import Mathlib.Data.Nat.Cast.Order.Ring
import PrivosCluster.AsyncProgram.History
import PrivosCluster.DocumentStore.Totals
import PrivosCluster.Master.Conduct

/-!
# What a workspace has installed, and its quota

A record that counts for the quota charges the workspace one app, and the memory and the CPUs of
all its replicas. The charges of all records make up the load of the workspace. A write changes the
load by the charge of one record, and time only takes charges away.
-/

namespace PrivosCluster

open AsyncProgram DocumentStore List

variable {replicaCount : Nat} {resources : ContainerResources} {app' : MasterApp}

namespace Quota

/-- The apps of a workspace that count, by the clock of the state. -/
def installedIn (workspaceId : String) (w : World) : List MasterApp :=
  w.apps.docs.filter fun app ↦ app.workspaceId == workspaceId && isInstalledForQuota app w.clock

structure Within (quota : WorkspaceQuota) (apps : Int) (used : Usage) : Prop where
  apps : apps ≤ quota.maxApps
  memoryMb : used.memoryMb ≤ quota.maxMemoryMb
  cpus : used.cpus ≤ quota.maxCpus

/-- The installed apps are within the quota of the workspace. -/
def WithinQuota (workspaceId : String) (w : World) : Prop :=
  ∀ workspace ∈ w.workspaces.docs, workspace.workspaceId = workspaceId →
    Within workspace.quota (installedIn workspaceId w).length (used (installedIn workspaceId w))

/-- The other installed apps and the app at the given size are within the quota. -/
def FitsBeside (workspaceId appId : String) (resources : ContainerResources) (replicaCount : Nat)
    (w : World) : Prop :=
  ∀ workspace ∈ w.workspaces.docs, workspace.workspaceId = workspaceId →
    let others := (installedIn workspaceId w).filter fun app ↦ app.appId != appId
    Within workspace.quota (others.length + 1)
      ((used others).add (.ofReplicas resources replicaCount))

/-! ## Charges -/

/-- A number of apps with their memory and their CPUs. -/
def measure (apps : Int) (used : Usage) : Int × Int × Rat := (apps, used.memoryMb, used.cpus)

def reserve (resources : ContainerResources) (replicaCount : Nat) : Int × Int × Rat :=
  measure 1 (.ofReplicas resources replicaCount)

def limit (quota : WorkspaceQuota) : Int × Int × Rat :=
  (quota.maxApps, quota.maxMemoryMb, quota.maxCpus)

/-- What a record reserves while it counts. -/
def size (app : MasterApp) : Int × Int × Rat := reserve app.resources app.replicas.length

def charge (workspaceId : String) (time : Time) (app : MasterApp) : Int × Int × Rat :=
  if app.workspaceId == workspaceId && isInstalledForQuota app time then size app else 0

def load (workspaceId : String) (w : World) : Int × Int × Rat :=
  total (charge workspaceId w.clock) w.apps.docs

theorem measure_add (apps more : Int) (used wanted : Usage) :
    measure (apps + more) (used.add wanted) = measure apps used + measure more wanted := rfl

theorem within_iff {quota : WorkspaceQuota} {apps : Int} {used : Usage} :
    Within quota apps used ↔ measure apps used ≤ limit quota :=
  ⟨fun h ↦ ⟨h.apps, h.memoryMb, h.cpus⟩, fun h ↦ ⟨h.1, h.2.1, h.2.2⟩⟩

/-- The number of apps and what they use are the sum of their sizes. -/
theorem measure_used (apps : List MasterApp) : measure apps.length (used apps) = total size apps := by
  have hfold : ∀ (start : Usage) (count : Int), measure (count + apps.length)
      (apps.foldl (fun total app ↦ total.add (.ofReplicas app.resources app.replicas.length)) start) =
        measure count start + total size apps := by
    induction apps with
    | nil => simp
    | cons app apps ih =>
      intro start count
      have hcount : count + (app :: apps).length = count + 1 + apps.length := by
        push_cast [length_cons]
        omega
      rw [hcount, foldl_cons, ih, measure_add, add_assoc]
      rfl
  have hzero : measure 0 ⟨0, 0⟩ = 0 := rfl
  have hstart := hfold ⟨0, 0⟩ 0
  rwa [hzero, zero_add, zero_add] at hstart

theorem total_installedIn (workspaceId : String) (w : World) :
    total size (installedIn workspaceId w) = load workspaceId w :=
  total_filter

variable {workspaceId : String} {w : World}

theorem withinQuota_iff :
    WithinQuota workspaceId w ↔ ∀ workspace ∈ w.workspaces.docs,
      workspace.workspaceId = workspaceId → load workspaceId w ≤ limit workspace.quota := by
  unfold WithinQuota
  simp only [within_iff, measure_used, total_installedIn]

/-- What the other apps of the workspace reserve. -/
def others (workspaceId appId : String) (w : World) : Int × Int × Rat :=
  total size ((installedIn workspaceId w).filter fun app ↦ app.appId != appId)

/-- A record that charges so much has room beside the others. -/
def Beside (workspaceId appId : String) (most : Int × Int × Rat) (w : World) : Prop :=
  ∀ workspace ∈ w.workspaces.docs, workspace.workspaceId = workspaceId →
    others workspaceId appId w + most ≤ limit workspace.quota

theorem fitsBeside_iff {appId : String} :
    FitsBeside workspaceId appId resources replicaCount w ↔
      Beside workspaceId appId (reserve resources replicaCount) w := by
  unfold FitsBeside
  simp only [within_iff, measure_add, measure_used]
  rfl

def chargeOther (workspaceId appId : String) (time : Time) (app : MasterApp) : Int × Int × Rat :=
  if app.appId = appId then 0 else charge workspaceId time app

theorem others_eq (workspaceId appId : String) (w : World) :
    others workspaceId appId w = total (chargeOther workspaceId appId w.clock) w.apps.docs := by
  rw [others, installedIn, total_filter, total_filter]
  congr 1
  funext app
  by_cases hid : app.appId = appId
  · simp [chargeOther, hid]
  · simp [chargeOther, hid, charge]

variable {app : MasterApp}

/-- The load is that of one record and the others. -/
theorem others_add_charge (happ : app ∈ w.apps.docs) :
    others workspaceId app.appId w + charge workspaceId w.clock app = load workspaceId w := by
  have hsplit : load workspaceId w = charge workspaceId w.clock app +
      total (charge workspaceId w.clock) (w.apps.docs.filter fun other ↦ other.appId != app.appId) :=
    total_eq_add_others (w.apps.ids_nodup appIdentity) happ
  rw [hsplit, add_comm, others_eq, total_filter]
  congr 2
  funext other
  by_cases hother : other.appId = app.appId <;> simp [chargeOther, hother]

/-! ## Time and writes -/

theorem reserve_mono {replicas replicas' : Nat} (hcpus : 0 ≤ resources.cpus)
    (h : replicas ≤ replicas') : reserve resources replicas ≤ reserve resources replicas' := by
  have hmemory : (resources.memoryMb : Int) * replicas ≤ resources.memoryMb * replicas' :=
    Int.mul_le_mul_of_nonneg_left (Int.ofNat_le.mpr h) (Int.natCast_nonneg _)
  have hshare : resources.cpus * replicas ≤ resources.cpus * replicas' :=
    mul_le_mul_of_nonneg_left (Nat.cast_le.mpr h) hcpus
  exact ⟨le_refl _, hmemory, hshare⟩

theorem size_nonneg (h : 0 ≤ app.resources.cpus) : 0 ≤ size app := by
  have hmemory : (0 : Int) ≤ app.resources.memoryMb * app.replicas.length :=
    Int.mul_nonneg (Int.natCast_nonneg _) (Int.natCast_nonneg _)
  have hcpus : 0 ≤ app.resources.cpus * app.replicas.length := mul_nonneg h (Nat.cast_nonneg _)
  exact ⟨Int.one_nonneg, hmemory, hcpus⟩

variable {time : Time}

theorem charge_nonneg (h : 0 ≤ app.resources.cpus) : 0 ≤ charge workspaceId time app := by
  unfold charge
  split
  · exact size_nonneg h
  · exact le_refl _

theorem charge_of_installed (hworkspace : app.workspaceId = workspaceId)
    (h : isInstalledForQuota app time) : charge workspaceId time app = size app := by
  simp [charge, hworkspace, h]

theorem charge_of_not_installed (h : isInstalledForQuota app time = false) :
    charge workspaceId time app = 0 := by
  simp [charge, h]

/-- A record that counts is charged no more than its size. -/
theorem charge_le_size (h : 0 ≤ app.resources.cpus) : charge workspaceId time app ≤ size app := by
  unfold charge
  split
  · exact le_refl _
  · exact size_nonneg h

theorem isInstalledForQuota_of_later {time' : Time} (h : time ≤ time')
    (hlater : isInstalledForQuota app time') : isInstalledForQuota app time := by
  unfold isInstalledForQuota at hlater ⊢
  cases hstate : app.state with
  | provisioning =>
    simp only [hstate, decide_eq_true_eq] at hlater ⊢
    have hage : time - app.createdAt ≤ time' - app.createdAt := Int.sub_le_sub_right h _
    exact Int.lt_of_le_of_lt hage hlater
  | quarantined => simpa [hstate] using hlater
  | running | stopped => rfl
  | _ => simp [hstate] at hlater

/-- Time only takes charges away. -/
theorem charge_antitone {time' : Time} (hsized : 0 ≤ app.resources.cpus) (h : time ≤ time') :
    charge workspaceId time' app ≤ charge workspaceId time app := by
  by_cases hcounts : (app.workspaceId == workspaceId && isInstalledForQuota app time')
  · have hworkspace := (Bool.and_eq_true _ _ ▸ hcounts).1
    have hlater := (Bool.and_eq_true _ _ ▸ hcounts).2
    simp [charge, hworkspace, hlater, isInstalledForQuota_of_later h hlater]
  · rw [charge, if_neg hcounts]
    exact charge_nonneg hsized

/-- No record has a negative share of CPUs. -/
def Sized (w : World) : Prop := ∀ app ∈ w.apps.docs, 0 ≤ app.resources.cpus

/-- There is room in the quota for something more. -/
def Room (workspaceId : String) (more : Int × Int × Rat) (w : World) : Prop :=
  ∀ workspace ∈ w.workspaces.docs, workspace.workspaceId = workspaceId →
    load workspaceId w + more ≤ limit workspace.quota

/-- Workspaces are told apart by their id. -/
def workspaceIdentity : Identity MasterWorkspace String workspaceKeys where
  id := MasterWorkspace.workspaceId
  key workspaceId := ⟨["workspaceId"], [workspaceId]⟩
  indexed _ := List.mem_singleton_self _

/-- The room that a check of the quota finds. -/
theorem room_of_within {workspace : MasterWorkspace} (hworkspace : workspace ∈ w.workspaces.docs)
    (hid : workspace.workspaceId = workspaceId) {apps : Int} {wanted : Usage}
    (h : Within workspace.quota ((installedIn workspaceId w).length + apps)
      ((used (installedIn workspaceId w)).add wanted)) :
    Room workspaceId (measure apps wanted) w := by
  intro workspace' hworkspace' hid'
  have hsame : workspace' = workspace :=
    Collection.eq_of_mem_of_id workspaceIdentity hworkspace' hworkspace (hid'.trans hid.symm)
  rw [hsame, ← total_installedIn, ← measure_used]
  exact within_iff.mp h

/-- Every workspace is within its quota, and the records are in order. -/
structure Solvent (w : World) : Prop where
  within : ∀ workspaceId, WithinQuota workspaceId w
  sized : Sized w

/-- The records of apps and workspaces are the same, at the same time or later. -/
structure SameRecords (w w' : World) : Prop where
  apps : w'.apps = w.apps
  workspaces : w'.workspaces = w.workspaces
  clock : w.clock ≤ w'.clock

theorem SameRecords.refl (w : World) : SameRecords w w := ⟨rfl, rfl, Int.le_refl _⟩

theorem SameRecords.trans {w' w'' : World} (h : SameRecords w w') (h' : SameRecords w' w'') :
    SameRecords w w'' where
  apps := h'.apps.trans h.apps
  workspaces := h'.workspaces.trans h.workspaces
  clock := Int.le_trans h.clock h'.clock

theorem SameRecords.of_quiet {w' : World} (h : Quiet w w') : SameRecords w w' :=
  ⟨h.apps, h.workspaces, h.clock⟩

section

variable {workspaceId appId : String} {w w' : World} {more most : Int × Int × Rat}

theorem Sized.same (hsized : Sized w) (h : SameRecords w w') : Sized w' := by
  rw [Sized, h.apps]
  exact hsized

theorem load_le_of_same (h : SameRecords w w') (hsized : Sized w) :
    load workspaceId w' ≤ load workspaceId w := by
  rw [load, h.apps]
  exact total_le_total fun app happ ↦ charge_antitone (hsized app happ) h.clock

theorem Room.same (hroom : Room workspaceId more w) (hsized : Sized w) (h : SameRecords w w') :
    Room workspaceId more w' := by
  intro workspace hworkspace hid
  rw [h.workspaces] at hworkspace
  exact le_trans (add_le_add_left (load_le_of_same h hsized) more) (hroom workspace hworkspace hid)

theorem room_zero_iff : Room workspaceId 0 w ↔ WithinQuota workspaceId w := by
  simp only [Room, withinQuota_iff, add_zero]

theorem Solvent.room (h : Solvent w) : Room workspaceId 0 w := room_zero_iff.mpr (h.within _)

theorem Solvent.same (h : Solvent w) (hsame : SameRecords w w') : Solvent w' where
  within _ := room_zero_iff.mp (h.room.same h.sized hsame)
  sized := h.sized.same hsame

theorem others_le_of_same (h : SameRecords w w') (hsized : Sized w) :
    others workspaceId appId w' ≤ others workspaceId appId w := by
  rw [others_eq, others_eq, h.apps]
  apply total_le_total
  intro app happ
  unfold chargeOther
  split
  · exact le_refl _
  · exact charge_antitone (hsized app happ) h.clock

theorem Beside.same (hbeside : Beside workspaceId appId most w) (hsized : Sized w)
    (h : SameRecords w w') : Beside workspaceId appId most w' := by
  intro workspace hworkspace hid
  rw [h.workspaces] at hworkspace
  exact le_trans (add_le_add_left (others_le_of_same h hsized) most)
    (hbeside workspace hworkspace hid)

theorem FitsBeside.same (hfits : FitsBeside workspaceId appId resources replicaCount w)
    (hsized : Sized w) (h : SameRecords w w') :
    FitsBeside workspaceId appId resources replicaCount w' :=
  fitsBeside_iff.mpr ((fitsBeside_iff.mp hfits).same hsized h)

variable {filter : MasterApp → Bool} {apps : Collection MasterApp appKeys}

/-- Writes of one app leave the others alone. -/
theorem others_update {update : MasterApp → MasterApp}
    (hdocs : apps.docs = updateFirst filter update w.apps.docs)
    (hfilter : ∀ app ∈ w.apps.docs, filter app →
      app.appId = appId ∧ (update app).appId = appId) :
    others workspaceId appId { w with apps } = others workspaceId appId w := by
  rw [others_eq, others_eq, hdocs]
  apply total_updateFirst_of_eq
  intro app happ hmatch
  obtain ⟨hid, hid'⟩ := hfilter app happ hmatch
  rw [chargeOther, chargeOther, if_pos hid, if_pos hid']

theorem Beside.update {update : MasterApp → MasterApp} (hbeside : Beside workspaceId appId most w)
    (hdocs : apps.docs = updateFirst filter update w.apps.docs)
    (hfilter : ∀ app ∈ w.apps.docs, filter app →
      app.appId = appId ∧ (update app).appId = appId) :
    Beside workspaceId appId most { w with apps } := by
  intro workspace hworkspace hid
  rw [others_update hdocs hfilter]
  exact hbeside workspace hworkspace hid

variable {app : MasterApp}

/-- Room beside the others is room for what is more than the record is charged. -/
theorem Beside.room (happ : app ∈ w.apps.docs) (h : Beside workspaceId app.appId most w) :
    Room workspaceId (most - charge workspaceId w.clock app) w := by
  intro workspace hworkspace hid
  have hmost := h workspace hworkspace hid
  rwa [← others_add_charge happ, add_assoc, add_sub_cancel]

/-! ### Writes -/

/-- The charge of the new record is covered by that of the old one and the room there is. -/
structure Affordable (w : World) (app app' : MasterApp) : Prop where
  workspaceId : app'.workspaceId = app.workspaceId
  cpus : 0 ≤ app'.resources.cpus
  room : ∃ more, Room app.workspaceId more w ∧
    charge app.workspaceId w.clock app' ≤ charge app.workspaceId w.clock app + more

theorem Affordable.of_le (h : Solvent w) (hworkspace : app'.workspaceId = app.workspaceId)
    (hcpus : 0 ≤ app'.resources.cpus)
    (hcharge : charge app.workspaceId w.clock app' ≤ charge app.workspaceId w.clock app) :
    Affordable w app app' :=
  ⟨hworkspace, hcpus, 0, h.room, by rwa [add_zero]⟩

theorem Affordable.of_beside (happ : app ∈ w.apps.docs)
    (hworkspace : app'.workspaceId = app.workspaceId) (hcpus : 0 ≤ app'.resources.cpus)
    (hbeside : Beside app.workspaceId app.appId most w)
    (hcharge : charge app.workspaceId w.clock app' ≤ most) : Affordable w app app' :=
  ⟨hworkspace, hcpus, _, hbeside.room happ, by rwa [add_sub_cancel]⟩

/-- The app fits beside the others at the size the new record has. -/
theorem Affordable.of_fits (happ : app ∈ w.apps.docs)
    (hworkspace : app'.workspaceId = app.workspaceId) (hcpus : 0 ≤ app'.resources.cpus)
    (hfits : FitsBeside app.workspaceId app.appId app'.resources app'.replicas.length w) :
    Affordable w app app' :=
  .of_beside happ hworkspace hcpus (fitsBeside_iff.mp hfits) (charge_le_size hcpus)

theorem charge_of_ne {time : Time} (h : app.workspaceId ≠ workspaceId) :
    charge workspaceId time app = 0 := by
  simp [charge, h]

/-- A write after which no workspace has more on its account than there was room for. -/
theorem Solvent.write (hload : ∀ workspaceId, ∃ more, Room workspaceId more w ∧
      load workspaceId { w with apps } ≤ load workspaceId w + more)
    (hsized : ∀ app ∈ apps.docs, 0 ≤ app.resources.cpus) : Solvent { w with apps } where
  within workspaceId := by
    obtain ⟨more, hroom, hmore⟩ := hload workspaceId
    apply withinQuota_iff.mpr
    exact fun workspace hworkspace hid ↦ le_trans hmore (hroom workspace hworkspace hid)
  sized := hsized

/-- One record in place of another exchanges their charges. -/
theorem load_update {update : MasterApp → MasterApp}
    (hdocs : apps.docs = updateFirst filter update w.apps.docs)
    (hfound : w.apps.docs.find? filter = some app) :
    load workspaceId { w with apps } + charge workspaceId w.clock app =
      load workspaceId w + charge workspaceId w.clock (update app) := by
  rw [load, hdocs]
  exact total_updateFirst hfound

/-- A record in place of another that is charged at most so much more. -/
theorem Solvent.update {update : MasterApp → MasterApp} (h : Solvent w)
    (hdocs : apps.docs = updateFirst filter update w.apps.docs)
    (hupdate : ∀ app ∈ w.apps.docs, filter app → Affordable w app (update app)) :
    Solvent { w with apps } := by
  apply Solvent.write
  · intro workspaceId
    cases hfound : w.apps.docs.find? filter with
    | none =>
      have hnone : ∀ app ∈ w.apps.docs, filter app = false := by simpa using hfound
      rw [updateFirst_of_forall_not hnone] at hdocs
      exact ⟨0, h.room, by simp [load, hdocs]⟩
    | some app =>
      have hstored := mem_of_find?_eq_some hfound
      have hpaid := hupdate app hstored (find?_some hfound)
      obtain ⟨more, hroom, hcharge⟩ : ∃ more, Room workspaceId more w ∧
          charge workspaceId w.clock (update app) ≤ charge workspaceId w.clock app + more := by
        by_cases hid : app.workspaceId = workspaceId
        · subst hid
          exact hpaid.room
        · have hid' : (update app).workspaceId ≠ workspaceId := hpaid.workspaceId ▸ hid
          exact ⟨0, h.room, by rw [charge_of_ne hid, charge_of_ne hid', add_zero]⟩
      refine ⟨more, hroom, ?_⟩
      apply le_of_add_le_add_right (a := charge workspaceId w.clock app)
      calc
        load workspaceId { w with apps } + charge workspaceId w.clock app =
            load workspaceId w + charge workspaceId w.clock (update app) := load_update hdocs hfound
        _ ≤ load workspaceId w + (charge workspaceId w.clock app + more) :=
          add_le_add_right hcharge _
        _ = load workspaceId w + more + charge workspaceId w.clock app := by
          rw [add_assoc, add_comm more]
  · intro app happ
    have hmem : app ∈ updateFirst filter update w.apps.docs := hdocs ▸ happ
    obtain hold | ⟨app₀, happ₀, hfilter, rfl⟩ := mem_updateFirst hmem
    · exact h.sized app hold
    · exact (hupdate app₀ happ₀ hfilter).cpus

/-- The charge of a new record, for its own workspace and for the others. -/
theorem room_of_charge (h : Solvent w) (hroom : Room app.workspaceId more w)
    (hcharge : charge app.workspaceId w.clock app ≤ more) (workspaceId : String) :
    ∃ more, Room workspaceId more w ∧ charge workspaceId w.clock app ≤ more := by
  by_cases happ : app.workspaceId = workspaceId
  · subst happ
    exact ⟨more, hroom, hcharge⟩
  · exact ⟨0, h.room, (charge_of_ne happ).le⟩

/-- A new record that there is room for. -/
theorem Solvent.insert (h : Solvent w) (hdocs : apps.docs = w.apps.docs ++ [app])
    (hroom : Room app.workspaceId more w) (hcharge : charge app.workspaceId w.clock app ≤ more)
    (hcpus : 0 ≤ app.resources.cpus) : Solvent { w with apps } := by
  apply Solvent.write
  · intro workspaceId
    obtain ⟨more, hroom, hcharge⟩ := room_of_charge h hroom hcharge workspaceId
    refine ⟨more, hroom, ?_⟩
    rw [load, hdocs, total_append, total_cons, total_nil, add_zero]
    exact add_le_add_right hcharge _
  · intro app' happ'
    have hmem : app' ∈ w.apps.docs ++ [app] := hdocs ▸ happ'
    obtain hold | hnew := mem_append.mp hmem
    · exact h.sized app' hold
    · rw [mem_singleton.mp hnew]
      exact hcpus

/-- A new record in place of one that does not count, perhaps of another workspace. -/
theorem Solvent.replace {old : MasterApp} (h : Solvent w)
    (hfound : w.apps.docs.find? filter = some old)
    (hold : isInstalledForQuota old w.clock = false)
    (hdocs : apps.docs = updateFirst filter (fun _ ↦ app) w.apps.docs)
    (hroom : Room app.workspaceId more w) (hcharge : charge app.workspaceId w.clock app ≤ more)
    (hcpus : 0 ≤ app.resources.cpus) : Solvent { w with apps } := by
  apply Solvent.write
  · intro workspaceId
    obtain ⟨more, hroom, hcharge⟩ := room_of_charge h hroom hcharge workspaceId
    refine ⟨more, hroom, ?_⟩
    have hload : load workspaceId { w with apps } + charge workspaceId w.clock old =
        load workspaceId w + charge workspaceId w.clock app := load_update hdocs hfound
    rw [charge_of_not_installed hold, add_zero] at hload
    rw [hload]
    exact add_le_add_right hcharge _
  · intro app' happ'
    have hmem : app' ∈ updateFirst filter (fun _ ↦ app) w.apps.docs := hdocs ▸ happ'
    obtain hold | ⟨-, -, -, rfl⟩ := mem_updateFirst hmem
    · exact h.sized app' hold
    · exact hcpus

/-- Room for more is room for it beside the others. -/
theorem Room.beside (hroom : Room workspaceId most w) (hsized : Sized w) :
    Beside workspaceId appId most w := by
  intro workspace hworkspace hid
  have hothers : others workspaceId appId w ≤ load workspaceId w := by
    rw [others_eq]
    apply total_le_total
    intro app happ
    unfold chargeOther
    split
    · exact charge_nonneg (hsized app happ)
    · exact le_refl _
  exact le_trans (add_le_add_left hothers most) (hroom workspace hworkspace hid)

theorem Beside.insert (hbeside : Beside workspaceId app.appId most w)
    (hdocs : apps.docs = w.apps.docs ++ [app]) :
    Beside workspaceId app.appId most { w with apps } := by
  intro workspace hworkspace hid
  have hothers : others workspaceId app.appId { w with apps } = others workspaceId app.appId w := by
    rw [others_eq, others_eq, hdocs, total_append, total_cons, total_nil, add_zero, chargeOther,
      if_pos rfl, add_zero]
  rw [hothers]
  exact hbeside workspace hworkspace hid

end

end Quota

end PrivosCluster
