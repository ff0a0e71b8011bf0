import PrivosCluster.Master.Footprint
import PrivosCluster.Master.Revocation

/-!
# Whether REMOVED is terminal

The operations on an app run side by side, without the workspace lock. Each loads only records
that are not REMOVED, but the writes of all of them except the claims of the reaper and of
`unquarantine` name the record by its id alone. So an operation that looked at the record before
it was removed may write a state over REMOVED. A reconcile pass that is shown a container the
removed record does not name adopts it.
-/

namespace PrivosCluster

open AsyncProgram DocumentStore AppLifecycle List Option

/-- The operations that may touch one app at a time. -/
inductive AppOperation where
  | invoke (workspaceId appId : String) (action : PowerAction)
  | setWorkspacePower (workspaceId : String) (action : WorkspacePower)
  | redeploy (workspaceId appId : String) (input : RedeployInput)
  | remove (workspaceId appId : String) (workspaceRevoked : Bool)
  | reapQuarantined (workspaceId appId : String)
  | unquarantine (workspaceId appId : String)
  | reconcile (baseDomain : String)

def AppOperation.program (deps : LifecycleDeps) : AppOperation → Async Unit
  | .invoke workspaceId appId action => do
    let _ ← AppLifecycle.invoke deps workspaceId appId action
  | .setWorkspacePower workspaceId action => do
    let _ ← AppLifecycle.setWorkspacePower deps workspaceId action
  | .redeploy workspaceId appId input => do
    let _ ← AppLifecycle.redeploy workspaceId appId input
  | .remove workspaceId appId workspaceRevoked =>
    AppLifecycle.remove deps workspaceId appId workspaceRevoked
  | .reapQuarantined workspaceId appId => AppLifecycle.reapQuarantined deps workspaceId appId
  | .unquarantine workspaceId appId => AppLifecycle.unquarantine deps workspaceId appId
  | .reconcile baseDomain => do
    let _ ← Reconcile.run baseDomain

/-- The record of the app, REMOVED, with the kind and the containers it has in `app`. -/
structure RemovedRecord (app app' : MasterApp) : Prop where
  id : app'.appId = app.appId
  state : app'.state = .removed
  kind : app'.kind = app.kind
  containers : app'.replicas.map (·.containerId) = app.replicas.map (·.containerId)

def StaysRemoved (app : MasterApp) (w : World) : Prop := ∃ app' ∈ w.apps.docs, RemovedRecord app app'

/-- The call reads or writes app records, or asks an agent for its containers. -/
def Touches : Call → Prop
  | .apps _ => True
  | .request ⟨_, _, .listApps⟩ => True
  | _ => False

/-- A listing shows of the app only containers that its record names, or v3 ones. -/
def ListsRecorded (app : MasterApp) : Call → Choice → Prop
  | .request ⟨_, _, .listApps⟩, x => ∀ response, x.answer = some response → response.status < 300 →
      ∀ container ∈ response.body.containers, Reconcile.appIdOf container = app.appId →
        container.mcpV3 = true ∨ app.kind = some .mcpV3 ∨
          container.id ∈ app.replicas.map (·.containerId)
  | _, _ => True

/-- The call is a write that matches the REMOVED record and makes something else of it. -/
def Overwrites (app : MasterApp) : Call → Prop
  | .apps op => ¬ op.Carries (fun _ ↦ True) (RemovedRecord app)
  | _ => False

variable {law : Law} {app' : MasterApp}

section Terminal

variable {app : MasterApp} {deps : LifecycleDeps}

theorem StaysRemoved.record {w : World} (h : StaysRemoved app w) :
    ∃ app', w.app app.appId = some app' ∧ RemovedRecord app app' := by
  obtain ⟨app', hmem, h⟩ := h
  exact ⟨app', World.app_eq_some.mpr ⟨hmem, h.id⟩, h⟩

/-- A call that is not such a write leaves the record REMOVED. -/
theorem StaysRemoved.respond {c : Call} (hc : ¬ Overwrites app c) (x : Choice) {w : World}
    (h : StaysRemoved app w) : StaysRemoved app (respond c x w).2 := by
  cases c with
  | apps op =>
    have hcarries : op.Carries (fun _ ↦ True) (RemovedRecord app) := not_not.mp hc
    have happly : StaysRemoved app { w with apps := (w.apps.apply x.pick op).2 } :=
      Collection.exists_apply hcarries (fun _ _ ↦ trivial) h
    simp only [PrivosCluster.respond, serveStore]
    cases x.fault
    · exact happly
    · exact h
    · exact happly
  | _ => exact h

/-- The law of the fleet, with listings restricted. -/
abbrev listing (app : MasterApp) : Law := fun c x w ↦ anyLaw c x w ∧ ListsRecorded app c x

abbrev terminal (app : MasterApp) : Discipline signature World := .inside Touches (StaysRemoved app)

/-- What a thread reads of app records once the record of the app is REMOVED. -/
def knownRemoved (app : MasterApp) : Known :=
  ⟨fun app' ↦ app'.appId = app.appId → RemovedRecord app app', fun _ ↦ True, fun _ ↦ True⟩

theorem reads_terminal : Reads (listing app) (terminal app) (knownRemoved app) :=
  Reads.of
    (fun _ w w' _ hquiet h ↦ by
      unfold StaysRemoved
      rw [hquiet.apps]
      exact h)
    (fun op w hw app' happ' hid ↦ by
      obtain ⟨app'', hmem, hremoved⟩ := hw trivial
      have hsame : app' = app'' :=
        Collection.eq_of_mem_of_id appIdentity happ' hmem (hid.trans hremoved.id.symm)
      rwa [hsame])
    (fun _ _ _ _ _ ↦ trivial) fun _ _ _ _ _ ↦ trivial

theorem allows_terminal {c : Call} (hc : ¬ Overwrites app c) :
    Allows law (terminal app) c fun _ ↦ True :=
  fun x _ _ _ ↦ ⟨fun h ↦ h.respond hc x, fun _ _ ↦ trivial⟩

variable {workspaceId : String}

theorem allowsCommands_terminal {K : Known} {command : AppReplica → AgentRequest} :
    AllowsCommands law (terminal app) K workspaceId app' command :=
  fun _ _ _ _ _ ↦ allows_terminal id

/-- A write that is addressed to another app overwrites nothing. -/
theorem allowsUpdate_terminal {filter : MasterApp → Bool} {update : Time → MasterApp → MasterApp}
    (h : ∀ app', RemovedRecord app app' → filter app' = false) :
    AllowsUpdate law (terminal app) filter update := by
  refine fun time ↦ allows_terminal fun hover ↦ hover fun app' _ happ' hf ↦ ?_
  rw [h app' happ'] at hf
  cases hf

variable {appId : String}

theorem byId_of_ne (h : appId ≠ app.appId) :
    ∀ app', RemovedRecord app app' → byId workspaceId appId app' = false := by
  intro app' happ'
  by_contra hby
  have hid := (byId_iff.mp (Bool.not_eq_false _ ▸ hby)).1
  exact h (hid.symm.trans happ'.id)

/-- The record a thread acts on is not the removed one. -/
theorem ne_of_loaded (h : Loaded (knownRemoved app) workspaceId appId app') :
    appId ≠ app.appId := by
  rintro rfl
  exact h.live (h.known (byId_iff.mp h.byId).1).state

theorem allowsDestroy_terminal {K : Known} (h : appId ≠ app.appId) :
    AllowsDestroy law (terminal app) K workspaceId appId app' where
  sends := allowsCommands_terminal
  removing := allowsUpdate_terminal (byId_of_ne h)
  removed := allowsUpdate_terminal (byId_of_ne h)

/-- A claim matches no REMOVED record, so a claim that counts is of another app. -/
theorem claims_terminal (time : Time) :
    Allows law (terminal app) (.apps (.updateOne
        (fun app ↦ byId workspaceId appId app && app.state == .quarantined) (removingAs time)))
      fun result ↦ result.modifiedCount = 1 → appId ≠ app.appId := by
  intro x w hw _
  have hnone : ∀ app', RemovedRecord app app' →
      (byId workspaceId appId app' && app'.state == .quarantined) = false := by
    intro app' happ'
    rw [happ'.state]
    simp
  refine ⟨((allowsUpdate_terminal hnone : AllowsUpdate anyLaw _ _ _) time x w hw trivial).1, ?_⟩
  rintro result hresult hcount rfl
  obtain ⟨app', hmem, hremoved⟩ := hw trivial
  have hmiss : ∀ d ∈ w.apps.docs,
      (byId workspaceId app.appId d && d.state == .quarantined) = false := by
    intro d hd
    by_contra hmatch
    rw [Bool.not_eq_false, Bool.and_eq_true] at hmatch
    have hsame : d = app' := Collection.eq_of_mem_of_id appIdentity hd hmem
      ((byId_iff.mp hmatch.1).1.trans hremoved.id.symm)
    rw [hsame, hremoved.state] at hmatch
    exact absurd hmatch.2 (by decide)
  have hfind : w.apps.docs.find? (fun d ↦ byId workspaceId app.appId d && d.state == .quarantined) =
      none := find?_eq_none.mpr fun d hd ↦ by simp [hmiss d hd]
  simp only [respond, serveStore, Collection.apply, hfind] at hresult
  cases hfault : x.fault <;> simp only [hfault] at hresult
  · injection hresult with hresult
    rw [← hresult] at hcount
    cases hcount
  · cases hresult
  · cases hresult

/-- A container that a pass may be shown once the record is REMOVED. -/
def mayBeListed (app : MasterApp) (container : Container) : Prop :=
  Reconcile.appIdOf container = app.appId →
    container.mcpV3 = true ∨ app.kind = some .mcpV3 ∨
      container.id ∈ app.replicas.map (·.containerId)

theorem reconcile_terminal : Reconcile.Allowed (listing app) (terminal app) (knownRemoved app)
    fun _ _ container ↦ mayBeListed app container where
  lists nodeId workspaceId x w _ hx := by
    refine ⟨id, fun response hresponse hstatus container hcontainer ↦ ?_⟩
    have hanswer : x.answer = some response := by
      simp only [respond] at hresponse
      split at hresponse
      next response' hanswer => exact Except.ok.inj hresponse ▸ hanswer
      · cases hresponse
    exact hx.2 response hanswer (Nat.lt_of_not_le hstatus) container hcontainer
  stops _ _ _ _ _ _ _ _ _ := allows_terminal id
  ooms workspaceId appId time := allows_terminal fun hover ↦ hover fun _ _ h _ ↦
    ⟨h.id, h.state, h.kind, h.containers⟩
  adopts nodeId workspaceId container app' replicaId hlisted hknown hby _ hmcpV3 hkind hnew := by
    refine allowsUpdate_terminal (byId_of_ne fun hid ↦ ?_)
    have hremoved := hknown ((byId_iff.mp hby).1.trans hid)
    obtain h | h | h := hlisted hid
    · rw [hmcpV3] at h
      cases h
    · exact hkind (hremoved.kind.trans h)
    · rw [← hremoved.containers] at h
      obtain ⟨replica, hreplica, hcontainer⟩ := List.mem_map.mp h
      have hany : app'.replicas.any (·.containerId == container.id) :=
        List.any_eq_true.mpr ⟨replica, hreplica, by simp [hcontainer]⟩
      rw [hnew] at hany
      cases hany
  inserts _ _ _ _ _ _ _ _ _ := allows_terminal fun hover ↦ hover fun _ _ h _ ↦ h

/-- Once an operation sees the record REMOVED, it leaves it REMOVED. -/
theorem program_terminal (operation : AppOperation) :
    Meets (cluster (listing app)) (terminal app) (fun _ ↦ True) (operation.program deps) := by
  cases operation with
  | invoke workspaceId appId action =>
    refine Meets.seq (Meets.imp (invoke_meets reads_terminal (fun _ _ _ ↦ allowsCommands_terminal)
      fun _ happ _ ↦ ?_) fun _ _ ↦ trivial) fun _ ↦ trivial
    exact allowsUpdate_terminal (byId_of_ne (ne_of_loaded happ))
  | setWorkspacePower workspaceId action =>
    refine Meets.seq (Meets.imp (setWorkspacePower_meets reads_terminal
      (fun _ _ _ ↦ allowsCommands_terminal) fun app' hknown hselected ↦ ?_) fun _ _ ↦ trivial)
      fun _ ↦ trivial
    refine allowsUpdate_terminal (byId_of_ne fun hid ↦ ?_)
    have hstate := (hknown hid).state
    cases action <;> simp [powerSelector, hstate] at hselected
  | redeploy workspaceId appId input =>
    refine Meets.seq (Meets.imp (redeploy_meets reads_terminal
      (fun _ _ _ _ _ ↦ allowsCommands_terminal) fun _ happ _ _ _ _ _ _ ↦ ?_) fun _ _ ↦ trivial)
      fun _ ↦ trivial
    exact allowsUpdate_terminal (byId_of_ne (ne_of_loaded happ))
  | remove workspaceId appId workspaceRevoked =>
    refine remove_meets reads_terminal (fun _ _ happ _ ↦ ⟨allowsCommands_terminal, ?_⟩)
      fun _ _ happ _ ↦ allowsDestroy_terminal (ne_of_loaded happ)
    exact allowsUpdate_terminal (byId_of_ne (ne_of_loaded happ))
  | reapQuarantined workspaceId appId =>
    exact reapQuarantined_meets reads_terminal
      { claims := claims_terminal
        destroys := fun hne _ _ _ ↦ allowsDestroy_terminal hne }
  | unquarantine workspaceId appId =>
    refine unquarantine_meets reads_terminal (allowsUpdate_terminal fun app' happ' ↦ ?_)
      fun _ _ _ ↦ allowsCommands_terminal
    rw [happ'.state]
    simp
  | reconcile baseDomain =>
    exact (Reconcile.run_meets reads_terminal reconcile_terminal).seq fun _ ↦ trivial

end Terminal

/-- The state of a pool in which each thread runs one operation. -/
def AppOperation.pool {ι : Type} (deps : LifecycleDeps) (operations : ι → AppOperation)
    (w : World) : Pool signature JsError World ι :=
  ⟨fun i ↦ (operations i).program deps, w⟩

/--
From the moment the record is REMOVED it stays so, in every interleaving in which the operations
that looked at the records before that moment overwrite it no more, and the agents list for the
app no container its record does not name.
-/
theorem removed_stays_removed {ι : Type} [DecidableEq ι] {deps : LifecycleDeps}
    {operations : ι → AppOperation} {w : World} {app : MasterApp}
    {pool₁ pool₂ : Pool signature JsError World ι} {before after : List (Event signature Choice ι)}
    (run₁ : Pool.Run (cluster anyLaw) (AppOperation.pool deps operations w) before pool₁)
    (happ : pool₁.state.app app.appId = some app) (hstate : app.state = .removed)
    (run₂ : Pool.Run (cluster anyLaw) pool₁ after pool₂)
    (hstale : ∀ e ∈ after, (∃ e' ∈ before, e'.thread = e.thread ∧ Touches e'.call) →
      ¬ Overwrites app e.call)
    (hlisted : ∀ e ∈ after, ListsRecorded app e.call e.choice) :
    ∃ app', pool₂.state.app app.appId = some app' ∧ app'.state = .removed := by
  have hstart : StaysRemoved app pool₁.state :=
    ⟨app, (World.app_eq_some.mp happ).1, rfl, hstate, rfl, rfl⟩
  have hthreads : ∀ i, Meets ((cluster anyLaw).restrict (ListsRecorded app)) (terminal app)
      (fun _ ↦ True) ((AppOperation.pool deps operations w).threads i) :=
    fun i ↦ program_terminal (operations i)
  have hstays : StaysRemoved app pool₂.state := by
    refine run₁.stays_inside (fun c x hc ↦ ?_) hthreads hstart run₂ hlisted
      fun e he htouched w hw ↦ hw.respond (hstale e he htouched) e.choice
    cases c with
    | request sent =>
      obtain ⟨nodeId, workspaceId, body⟩ := sent
      cases body with
      | listApps => exact absurd trivial hc
      | _ => trivial
    | _ => trivial
  obtain ⟨app', happ', hremoved⟩ := hstays.record
  exact ⟨app', happ', hremoved.state⟩

namespace Sample

instance : ∀ c x w, Decidable ((cluster anyLaw).permits c x w) := fun _ _ _ ↦ isTrue trivial

/-- An explicit removal and a start command, side by side on a running app. -/
def race : Pool signature JsError World (Fin 2) :=
  AppOperation.pool deps
    (fun i ↦ if i = 0 then .remove "acme" "notes" false else .invoke "acme" "notes" .start)
    (world (app none .running none) nodup_running)

/-- A schedule of the two, with every answer at its default. -/
def raced (schedule : List (Fin 2)) (pool : Pool signature JsError World (Fin 2)) :
    List (Event signature Choice (Fin 2)) × Pool signature JsError World (Fin 2) :=
  Pool.play (cluster anyLaw) (fun _ _ ↦ {}) schedule pool

end Sample

/-- The command comes after the removal and finds no app. -/
theorem removed_stays_removed_sequential :
    let before := Sample.raced (replicate 15 0) Sample.race
    let after := Sample.raced (replicate 10 1) before.2
    ∃ app', after.2.state.app "notes" = some app' ∧ app'.state = .removed := by
  intro before after
  obtain ⟨app, happ⟩ : ∃ app, before.2.state.app "notes" = some app :=
    isSome_iff_exists.mp (by decide +kernel)
  have hstate : (before.2.state.app "notes").map (·.state) = some .removed := by decide +kernel
  rw [happ, map_some, Option.some.injEq] at hstate
  obtain ⟨-, hid⟩ := World.app_eq_some.mp happ
  have hbefore : ∀ i ∈ before.1.map (·.thread), i = 0 := by decide +kernel
  have hafter : ∀ i ∈ after.1.map (·.thread), i = 1 := by decide +kernel
  have hquery : ∃ filter, after.1 = [⟨1, .apps (.findOne filter), {}⟩] := ⟨_, rfl⟩
  rw [← hid] at happ ⊢
  refine removed_stays_removed (Pool.run_play _ _ _) happ hstate (Pool.run_play _ _ _)
    (fun e he ⟨e', he', hthread, _⟩ ↦ ?_) fun e he ↦ ?_
  · have h0 := hbefore _ (List.mem_map_of_mem he')
    have h1 := hafter _ (List.mem_map_of_mem he)
    rw [hthread, h1] at h0
    exact absurd h0 (by decide)
  · obtain ⟨filter, hquery⟩ := hquery
    have hlast : e = ⟨1, .apps (.findOne filter), {}⟩ := by
      have hmem : e ∈ after.1 := he
      rw [hquery] at hmem
      exact mem_singleton.mp hmem
    rw [hlast]
    trivial

/-- A start command that loaded the record before the removal writes RUNNING after it. -/
theorem invoke_resurrects_removed :
    ¬ ∀ (ι : Type) [DecidableEq ι] (deps : LifecycleDeps) (operations : ι → AppOperation)
      (w : World) (app : MasterApp) (pool₁ pool₂ : Pool signature JsError World ι)
      (before after : List (Event signature Choice ι)),
      Pool.Run (cluster anyLaw) (AppOperation.pool deps operations w) before pool₁ →
      pool₁.state.app app.appId = some app → app.state = .removed →
      Pool.Run (cluster anyLaw) pool₁ after pool₂ →
      ∃ app', pool₂.state.app app.appId = some app' ∧ app'.state = .removed := by
  intro h
  -- the command stops before its write, the removal completes, and the command goes on
  let before := Sample.raced (replicate 5 1 ++ replicate 15 0) Sample.race
  let after := Sample.raced [1] before.2
  obtain ⟨app, happ⟩ : ∃ app, before.2.state.app "notes" = some app :=
    isSome_iff_exists.mp (by decide +kernel)
  have hstate : (before.2.state.app "notes").map (·.state) = some .removed := by decide +kernel
  rw [happ, map_some, Option.some.injEq] at hstate
  obtain ⟨-, hid⟩ := World.app_eq_some.mp happ
  have hstays := h _ _ _ _ app _ _ _ _ (Pool.run_play _ _ _) (hid.symm ▸ happ) hstate
    (Pool.run_play (fun _ _ ↦ {}) [1] before.2)
  obtain ⟨app', happ', hremoved⟩ := hstays
  have hrunning : (after.2.state.app "notes").map (·.state) = some .running := by decide +kernel
  rw [hid] at happ'
  have hsame : after.2.state.app "notes" = some app' := happ'
  rw [hsame, map_some, hremoved] at hrunning
  exact absurd hrunning (by decide)

end PrivosCluster
