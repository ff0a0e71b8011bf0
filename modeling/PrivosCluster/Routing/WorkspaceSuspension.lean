import PrivosCluster.Routing.RegistryWrites
import PrivosCluster.Routing.TenantRoutes

/-!
# Suspended workspaces

A suspension sweeps the rows of a workspace once, one state after the other. Nothing else knows that
the workspace is suspended, so what is registered for it afterwards, or recorded by a pass of the
worker that has read the rows before, is in service again. Where no other operation does so, the
hosts of the workspace stay out of service.
-/

namespace PrivosCluster.Routing

open AsyncProgram DocumentStore List AppHostRegistry AppHostState

/-- No row of the workspace is in the state. -/
def Clear (workspaceId : String) (state : AppHostState) (s : System) : Prop :=
  ∀ row ∈ s.appHosts.docs, row.workspaceId = workspaceId → row.state ≠ state

/-- No row of the workspace is PENDING, ACTIVE or SUSPENDED. -/
def OutOfService (workspaceId : String) (s : System) : Prop :=
  ∀ row ∈ s.appHosts.docs, row.workspaceId = workspaceId →
    row.state ∉ AppHostRegistry.suspensibleStates

theorem outOfService_iff {workspaceId : String} {s : System} :
    OutOfService workspaceId s ↔
      ∀ state ∈ suspensibleStates, Clear workspaceId state s := by
  constructor
  · rintro h state hstate row hrow hown rfl
    exact h row hrow hown hstate
  · exact fun h row hrow hown hstate ↦ h row.state hstate row hrow hown rfl

/-- A step keeps clear what is clear. -/
def StaysClear (workspaceId : String) (s s' : System) : Prop :=
  ∀ state ∈ AppHostRegistry.suspensibleStates, Clear workspaceId state s → Clear workspaceId state s'

/--
A step of another operation while the workspace is suspended: the workspace is not resumed, no host
is registered or desired for it, and no pass of the worker records a host of it as in service.
-/
def Undisturbed (workspaceId : String) (s : System) : RegistryOperation → SystemCall → Prop
  | .setWorkspaceHostsSuspended workspaceId' false, _ => workspaceId' ≠ workspaceId
  | .reserve input, .appHosts (.one (.insertOne _)) => input.workspaceId ≠ workspaceId
  | .setDesiredHosts input, .appHosts (.one (.insertOne _)) =>
    input.workspaceId ≠ workspaceId
  | .setDesiredHosts _, .appHosts (.one (.updateOne filter _)) =>
    ∀ row ∈ s.appHosts.docs, filter row = true → row.workspaceId ≠ workspaceId
  | .runOnce, .appHosts (.one (.updateOne filter update)) =>
    ∀ row ∈ s.appHosts.docs, filter row = true → row.workspaceId = workspaceId →
      (update row).state ∈ AppHostRegistry.suspensibleStates → (update row).state = row.state
  | _, _ => True

variable {c : SystemCall} {origin : AppHostState} {time : Time}

section Steps

variable {workspaceId : String} {operation : RegistryOperation} {s : System}

/-- What an undisturbing step writes to a row of the workspace is out of service, or in the state of
the row it replaces. -/
theorem written_outOfService {op : BulkOperation AppHostRecord} (hop : operation.Writes op)
    (h : Undisturbed workspaceId s operation (.appHosts op)) {row : AppHostRecord}
    (hrow : op.Writes s.appHosts.docs row) (hown : row.workspaceId = workspaceId)
    (hstate : row.state ∈ suspensibleStates) :
    ∃ before ∈ s.appHosts.docs, before.workspaceId = workspaceId ∧
      before.state = row.state := by
  have hdeleting : deleting ∉ suspensibleStates := by decide
  have hreleased : cfReleased ∉ suspensibleStates := by decide
  have hsuspended : wsSuspended ∉ suspensibleStates := by decide
  have hretired : RegistryOperation.Retires op → ∃ before ∈ s.appHosts.docs,
      before.workspaceId = workspaceId ∧ before.state = row.state := by
    intro hretires
    cases op with
    | one op => exact hretires.elim
    | updateMany filter update =>
      obtain ⟨time, rfl⟩ := hretires
      obtain ⟨before, -, -, rfl⟩ := hrow
      exact absurd hstate hdeleting
    | deleteMany filter => exact hrow.elim
  cases op with
  | one op =>
    cases op with
    | findOne | find => exact hrow.elim
    | insertOne inserted =>
      cases operation with
      | reserve input =>
        obtain rfl : row = inserted := hrow
        exact absurd (hop.1.symm.trans hown) h
      | setDesiredHosts input =>
        obtain ⟨host, -, time, rfl⟩ := hop
        obtain rfl : row = _ := hrow
        exact absurd hown h
      | _ => exact hop.elim
    | updateOne filter update =>
      obtain ⟨before, hbefore, hfilter, rfl⟩ := hrow
      cases operation with
      | setDesiredHosts input =>
        obtain ⟨host, -, time, rfl, rfl⟩ := hop
        exact absurd hown (h before hbefore hfilter)
      | runOnce =>
        have hkept : (update before).workspaceId = before.workspaceId := by
          obtain ⟨host, time, -, rfl | rfl | ⟨id, rfl⟩⟩ := hop <;> rfl
        rw [hkept] at hown
        exact ⟨before, hbefore, hown, (h before hbefore hfilter hown hstate).symm⟩
      | releaseSuspendedCfHostnames retentionDays =>
        obtain ⟨host, time, ⟨-, rfl⟩ | ⟨-, rfl⟩⟩ := hop
        · exact ⟨before, hbefore, hown, rfl⟩
        · exact absurd hstate hreleased
      | reserve | removeAllAppHosts => exact hop.elim
      | setWorkspaceHostsSuspended workspaceId' suspended => cases suspended <;> exact hop.elim
    | upsertOne | insertMany | replaceOne =>
      cases operation with
      | setWorkspaceHostsSuspended workspaceId' suspended => cases suspended <;> exact hop.elim
      | _ => exact hop.elim
  | updateMany filter update =>
    cases operation with
    | setDesiredHosts | removeAllAppHosts => exact hretired hop
    | setWorkspaceHostsSuspended workspaceId' suspended =>
      cases suspended with
      | true =>
        obtain ⟨origin, -, time, -, rfl⟩ := hop
        obtain ⟨before, -, -, rfl⟩ := hrow
        exact absurd hstate hsuspended
      | false =>
        obtain ⟨⟨origin, rfl⟩, state, time, hupdate⟩ := hop
        obtain ⟨before, -, hfilter, rfl⟩ := hrow
        have hof := workspaceId_of_isSuspendedOf hfilter
        have hkept : (update before).workspaceId = before.workspaceId := by
          rcases hupdate with rfl | rfl <;> rfl
        rw [hkept, hof] at hown
        exact absurd hown h
    | _ => exact hop.elim
  | deleteMany filter => exact hrow.elim

/-- One step of another operation. -/
theorem Undisturbed.staysClear (h : Undisturbed workspaceId s operation c)
    (hc : operation.Makes (.system c)) (x : Choice) :
    StaysClear workspaceId s (System.respond c x s).2 := by
  intro state hstate hclear
  cases c with
  | appHosts op =>
    rintro row hrow hown rfl
    obtain hbefore | hwritten := mem_serveBulk hrow
    · exact hclear row hbefore hown rfl
    · obtain ⟨before, hbefore, hown', hstate'⟩ := written_outOfService hc h hwritten hown hstate
      exact hclear before hbefore hown' hstate'
  | _ => exact hclear

end Steps

/-! ## The sweep -/

section Sweep

variable {ι : Type} {workspaceId : String} {law : SystemLaw}

/-- Among operations that keep clear what is clear; the others do not disturb the thread `i`. -/
def whileSuspended (workspaceId : String) (tasks : ι → RegistryOperation) (i j : ι) :
    Contract systemSignature JsError System Choice Unit where
  track note _ _ := note
  assumes c _ s := j ≠ i → Undisturbed workspaceId s (tasks j) c
  rely _ := StaysClear workspaceId
  ensures _ c x s := StaysClear workspaceId s (System.respond c x s).2
  rely_refl _ _ _ _ := id
  rely_trans _ _ _ _ h h' state hstate hclear := h' state hstate (h state hstate hclear)

/-- After a sweep for one state of origin that was not refused, the state is clear. -/
theorem clear_of_swept {x : Choice} {s : System} {result : UpdateResult}
    (horigin : origin ∈ suspensibleStates)
    (h : (System.respond (.appHosts (.updateMany
      (fun row ↦ row.workspaceId == workspaceId && row.state == origin)
      (suspendedAs origin time))) x s).1 = .ok result) :
    Clear workspaceId origin (System.respond (.appHosts (.updateMany
      (fun row ↦ row.workspaceId == workspaceId && row.state == origin)
      (suspendedAs origin time))) x s).2 := by
  have hdocs := docs_of_updateMany_ok h
  intro row hrow hown hstate
  simp only [System.respond] at hrow
  rw [hdocs] at hrow
  obtain ⟨before, -, rfl⟩ := List.mem_map.mp hrow
  split at hstate
  next =>
    obtain rfl : wsSuspended = origin := hstate
    exact absurd horigin (by decide)
  next hfilter =>
    rw [if_neg hfilter] at hown
    simp [hown, hstate] at hfilter

variable {tasks : ι → RegistryOperation} {i : ι}

/-- A call of the suspension leaves clear what is clear. -/
theorem suspension_ensures
    (hc : (RegistryOperation.setWorkspaceHostsSuspended workspaceId true).MakesOnSystem c)
    (x : Choice) (s : System) : StaysClear workspaceId s (System.respond c x s).2 := by
  have hundisturbed :
      Undisturbed workspaceId s (.setWorkspaceHostsSuspended workspaceId true) c := trivial
  exact hundisturbed.staysClear hc.makes x

theorem OutOfService.stays {s s' : System} (h : OutOfService workspaceId s)
    (hstays : StaysClear workspaceId s s') : OutOfService workspaceId s' :=
  outOfService_iff.mpr fun state hstate ↦ hstays state hstate (outOfService_iff.mp h state hstate)

/-- One update of the sweep: what was clear stays so, and its own state becomes clear. -/
theorem sweepState_clears {visited : List AppHostState} {s : System}
    (hsub : ∀ state ∈ visited ++ [origin], state ∈ suspensibleStates)
    (hvisited : ∀ state ∈ visited, Clear workspaceId state s) :
    Among (system law) (whileSuspended workspaceId tasks i i)
      (onExit (fun _ _ s ↦ ∀ state ∈ visited ++ [origin], Clear workspaceId state s)
        fun _ _ _ ↦ True)
      (AppHosts.updateMany (fun row ↦ row.workspaceId == workspaceId && row.state == origin)
        (suspendedAs origin time)) () s := by
  intro s' hrely x _ _
  have horigin := hsub origin (by simp)
  have hmakes : (RegistryOperation.setWorkspaceHostsSuspended workspaceId true).MakesOnSystem
      (.appHosts (.updateMany (fun row ↦ row.workspaceId == workspaceId && row.state == origin)
        (suspendedAs origin time))) := ⟨origin, horigin, time, rfl, rfl⟩
  have hensures : StaysClear workspaceId s' _ := suspension_ensures hmakes x s'
  refine ⟨hensures, ?_⟩
  cases hanswer : ((system law).respond (.appHosts (.updateMany
      (fun row ↦ row.workspaceId == workspaceId && row.state == origin)
      (suspendedAs origin time))) x s').1 with
  | ok result =>
    intro state hstate
    obtain hmem | hmem := mem_append.mp hstate
    · have hbefore := hrely state (hsub state hstate) (hvisited state hmem)
      exact hensures state (hsub state hstate) hbefore
    · rw [mem_singleton.mp hmem]
      exact clear_of_swept horigin hanswer
  | error e => trivial

/-- A whole sweep that was not refused clears all three states. -/
theorem sweepHosts_clears {s : System} :
    Among (system law) (whileSuspended workspaceId tasks i i)
      (onExit (fun _ _ s ↦ OutOfService workspaceId s) fun _ _ _ ↦ True)
      (sweepHosts workspaceId true time) () s := by
  have hloop : Among (system law) (whileSuspended workspaceId tasks i i)
      (onExit (fun _ _ s ↦ ∀ state ∈ suspensibleStates, Clear workspaceId state s)
        fun _ _ _ ↦ True)
      (sweepHosts workspaceId true time) () s := by
    unfold sweepHosts
    rw [if_pos rfl]
    apply Among.foldEach (I := fun visited _ s ↦ ∀ state ∈ visited, Clear workspaceId state s)
    · intro visited origin rest modified _ s hsplit hvisited
      have hsub : ∀ state ∈ visited ++ [origin], state ∈ suspensibleStates := by
        intro state hstate
        rw [hsplit, append_cons]
        exact mem_append_left rest hstate
      apply (sweepState_clears hsub hvisited).bind
      · exact fun _ _ _ hclear ↦ hclear
      · exact fun _ _ _ _ ↦ trivial
    · exact nofun
  apply hloop.imp
  intro r _ s hr
  cases r with
  | ok modified => exact outOfService_iff.mpr hr
  | error e => trivial

/-- A suspension that returns leaves no host of the workspace in service. -/
theorem suspension_clears {deps : RegistryDeps} {s : System} :
    Among (system law) (whileSuspended workspaceId tasks i i)
      (onExit (fun _ _ s ↦ OutOfService workspaceId s) fun _ _ _ ↦ True)
      (AppHostRegistry.setWorkspaceHostsSuspended deps workspaceId true) () s := by
  have hcalls : ∀ c x s,
      (RegistryOperation.setWorkspaceHostsSuspended workspaceId true).MakesOnSystem c →
        StaysClear workspaceId s (System.respond c x s).2 :=
    fun _ x s hc ↦ suspension_ensures hc x s
  apply Among.bind (R := fun _ _ _ ↦ True)
  · exact Among.of_asks asks_systemNow fun _ c x s hc _ _ ↦ hcalls c x s hc
  · intro time _ s _
    apply sweepHosts_clears.bind
    · intro modified _ s hclear
      have hannounce : Among (system law) (whileSuspended workspaceId tasks i i)
          (fun _ _ s ↦ OutOfService workspaceId s)
          (Program.onlyIf (0 < modified) (announce deps (!true))) () s := by
        apply Among.keeps (Asks.onlyIf announce_asks)
        · exact fun _ _ _ hstays hclear ↦ hclear.stays hstays
        · intro _ c x s hc _ _ hclear
          exact ⟨hcalls c x s hc, hclear.stays (hcalls c x s hc)⟩
        · exact hclear
      apply hannounce.bind
      · exact fun _ _ _ hclear ↦ hclear
      · exact fun _ _ _ _ ↦ trivial
    · exact fun _ _ _ _ ↦ trivial
  · exact fun _ _ _ _ ↦ trivial

end Sweep

/-! ## Runs -/

section Runs

variable {ι : Type} [DecidableEq ι] {workspaceId : String} {law : SystemLaw}
  {tasks : ι → RegistryOperation} {i : ι}

/-- Once the suspension has returned, its workspace is out of service. -/
def suspendedOnce (workspaceId : String) (i j : ι) :
    Except JsError Unit → Unit → System → Prop :=
  onExit (fun _ _ s ↦ j = i → OutOfService workspaceId s) fun _ _ _ ↦ True

/-- The suspension fits together with operations that do not disturb it. -/
theorem suspension_team :
    Team (system law) (whileSuspended workspaceId tasks i) (suspendedOnce workspaceId i)
      fun _ _ ↦ True where
  stable j r _ s s' hstays hr := by
    cases r with
    | ok _ => exact fun hj ↦ (hr hj).stays hstays
    | error e => trivial
  fits _ _ _ _ _ _ _ _ hensures _ _ := hensures
  keeps _ _ _ _ _ _ _ _ _ := trivial

/-- Where the threads stand when the suspension is about to begin. -/
theorem suspension_stands {deps : EdgeDeps} {pool : Pool edgeSignature JsError Edge ι}
    (htask : tasks i = .setWorkspaceHostsSuspended workspaceId true)
    (hstart : pool.threads i = (tasks i).program deps)
    (hothers : ∀ j, AsyncProgram.Asks (tasks j).Makes (pool.threads j)) :
    pool.Stands (edge fun _ _ _ ↦ True) (fun j ↦ onEdgeContract (whileSuspended workspaceId tasks i j))
      (fun j r note s ↦ suspendedOnce workspaceId i j r note s.system) (fun _ _ ↦ True)
      fun _ ↦ () where
  joint := trivial
  threads j := by
    by_cases hj : j = i
    · subst hj
      rw [hstart, htask]
      have hclears : Among (system fun _ _ _ ↦ True) (whileSuspended workspaceId tasks j j)
          (onExit (fun _ _ s ↦ OutOfService workspaceId s) fun _ _ _ ↦ True)
          (AppHostRegistry.setWorkspaceHostsSuspended deps.registry workspaceId true) ()
          pool.state.system := suspension_clears
      have hedge : Among (edge fun _ _ _ ↦ True) _ _ _ () pool.state :=
        Among.onEdge (fun _ _ _ _ ↦ trivial) hclears
      apply hedge.bind
      · exact fun _ _ _ hclear _ ↦ hclear
      · exact fun _ _ _ _ ↦ trivial
    · have hcalls : Among (edge fun _ _ _ ↦ True) (onEdgeContract (whileSuspended workspaceId tasks i j))
          (fun _ _ _ ↦ True) (pool.threads j) () pool.state := by
        apply Among.of_asks (hothers j)
        intro _ c x s hc _ hassume
        cases c with
        | system c => exact (hassume hj).staysClear hc x.system
        | cloudflare | sleep => trivial
      apply hcalls.imp
      intro r _ s _
      cases r with
      | ok _ => exact fun h ↦ absurd h hj
      | error e => trivial

/--
Once a suspension has returned, no host of its workspace is in service, as long as the workspace is
not resumed, no host is registered or desired for it, and no pass of the worker records a host of it
as in service, from the first step of the suspension on.
-/
theorem stays_suspended (deps : EdgeDeps) (workspaceId : String) (tasks : ι → RegistryOperation)
    (i : ι) (htask : tasks i = .setWorkspaceHostsSuspended workspaceId true) (s : Edge)
    (before after : List (Event edgeSignature EdgeChoice ι))
    (pool₁ pool₂ : Pool edgeSignature JsError Edge ι)
    (run₁ : Pool.Run (edge fun _ _ _ ↦ True) (RegistryOperation.pool deps tasks s) before pool₁)
    (hbegins : ∀ e ∈ before, e.thread ≠ i)
    (run₂ : Pool.Run (edge fun _ _ _ ↦ True) pool₁ after pool₂)
    (hreturned : pool₂.threads i = .pure ())
    (hundisturbed : ∀ earlier e later pool, after = earlier ++ e :: later →
      Pool.Run (edge fun _ _ _ ↦ True) pool₁ earlier pool → e.thread ≠ i →
        ∀ c, e.call = .system c → Undisturbed workspaceId pool.state.system (tasks e.thread) c) :
    OutOfService workspaceId pool₂.state.system := by
  have hothers := run₁.asks (P := fun j ↦ (tasks j).Makes)
    fun j ↦ RegistryOperation.program_asks deps (tasks j)
  have hstart : pool₁.threads i = (tasks i).program deps := run₁.idle hbegins
  have hstands := suspension_stands htask hstart hothers
  have hsystem : Team (system fun _ _ _ ↦ True) (whileSuspended workspaceId tasks i)
      (suspendedOnce workspaceId i) fun _ _ ↦ True := suspension_team
  have hteam : Team (edge fun _ _ _ ↦ True) _ _ _ :=
    Team.onEdge (fun _ _ _ _ ↦ trivial) hsystem
  have hassume : ∀ earlier e later pool (_ : ι → Unit), after = earlier ++ e :: later →
      Pool.Run (edge fun _ _ _ ↦ True) pool₁ earlier pool → True →
        (onEdgeContract (whileSuspended workspaceId tasks i e.thread)).assumes e.call e.choice
          pool.state := by
    intro earlier e later pool _ hsplit hrun _
    cases hcall : e.call with
    | system c => exact fun hother ↦ hundisturbed earlier e later pool hsplit hrun hother c hcall
    | cloudflare | sleep => trivial
  obtain ⟨notes, hends⟩ := run₂.together hteam hassume hstands
  have hend := hends.threads i
  rw [hreturned] at hend
  exact hend rfl

end Runs

namespace Sample

def edgeDeps : EdgeDeps := ⟨⟨id, true, true⟩, ⟨true, some "zone", some "token"⟩⟩

/-- A custom host of `acme`, in service. -/
def customRow : AppHostRecord where
  hostname := "notes.acme.test"
  workspaceId := "acme"
  appId := "notes"
  listingId := "listing"
  kind := .custom
  primary := true
  state := .active
  cfHostnameId := some "cf-1"
  createdAt := 0
  updatedAt := 0

theorem nodup_customRow : ([customRow].flatMap appHostKeys).Nodup := by decide

def inService : Edge where
  system := { vacant with appHosts := ⟨[customRow], nodup_customRow⟩ }
  customHostnames := [⟨"cf-1", "notes.acme.test", some "notes.acme.test"⟩]
  issued := [⟨"cf-1", "notes.acme.test", some "notes.acme.test"⟩]

/-- `acme` is suspended, and the worker looks for suspensions past their retention. -/
def retentionTasks (i : Fin 2) : RegistryOperation :=
  if i = 0 then .setWorkspaceHostsSuspended "acme" true else .releaseSuspendedCfHostnames 30

/-- `acme` is suspended, and a new host is desired for its app. -/
def registrationTasks (i : Fin 2) : RegistryOperation :=
  if i = 0 then .setWorkspaceHostsSuspended "acme" true
  else .setDesiredHosts
    { workspaceId := "acme", appId := "notes", listingId := "listing",
      hosts := [⟨"notes.acme.test", .custom, true, .active⟩] }

instance (c : EdgeCall) (x : EdgeChoice) (s : Edge) :
    Decidable ((edge fun _ _ _ ↦ True).permits c x s) :=
  inferInstanceAs (Decidable True)

def interleaved (tasks : Fin 2 → RegistryOperation) (schedule : List (Fin 2)) :
    List (Event edgeSignature EdgeChoice (Fin 2)) × Pool edgeSignature JsError Edge (Fin 2) :=
  Pool.play (edge fun _ _ _ ↦ True) (fun _ _ ↦ {}) schedule
    (RegistryOperation.pool edgeDeps tasks inService)

def hasReturned : EdgeAction Unit → Bool
  | .pure _ => true
  | _ => false

theorem eq_pure_of_hasReturned {p : EdgeAction Unit} (h : hasReturned p) : p = .pure () := by
  cases p with
  | pure _ => rfl
  | _ => cases h

end Sample

/-- A suspension beside a pass for old suspensions. -/
theorem stays_suspended_retention :
    let ended := Sample.interleaved Sample.retentionTasks [0, 1, 0, 0, 1, 0, 0, 0]
    ended.2.state.system.appHosts.docs.length = 1 ∧
      OutOfService "acme" ended.2.state.system := by
  intro ended
  refine ⟨by decide +kernel, ?_⟩
  have hreturned : Sample.hasReturned (ended.2.threads 0) := by decide +kernel
  apply stays_suspended Sample.edgeDeps "acme" Sample.retentionTasks 0 rfl Sample.inService []
    ended.1 _ ended.2 .start (fun _ h ↦ nomatch h) (Pool.run_play _ _ _)
    (Sample.eq_pure_of_hasReturned hreturned)
  intro earlier e later pool _ _ hother c _
  unfold Sample.retentionTasks
  rw [if_neg hother]
  trivial

/-- A host that is desired after the suspension has returned is in service again. -/
theorem desired_while_suspended :
    let suspended := Sample.interleaved Sample.registrationTasks (replicate 6 0)
    let ended := Sample.interleaved Sample.registrationTasks (replicate 6 0 ++ replicate 12 1)
    suspended.2.threads 0 = .pure () ∧ OutOfService "acme" suspended.2.state.system ∧
      ended.2.threads 0 = .pure () ∧ ended.2.threads 1 = .pure () ∧
        Pool.Run (edge fun _ _ _ ↦ True)
          (RegistryOperation.pool Sample.edgeDeps Sample.registrationTasks Sample.inService)
          ended.1 ended.2 ∧
        ¬ OutOfService "acme" ended.2.state.system := by
  intro suspended ended
  have hsuspended : Sample.hasReturned (suspended.2.threads 0) := by decide +kernel
  have hreturned : Sample.hasReturned (ended.2.threads 0) := by decide +kernel
  have hreplaced : Sample.hasReturned (ended.2.threads 1) := by decide +kernel
  have hclear : ∀ row ∈ suspended.2.state.system.appHosts.docs, row.workspaceId = "acme" →
      row.state ∉ AppHostRegistry.suspensibleStates := by decide +kernel
  have hactive : ¬ ∀ row ∈ ended.2.state.system.appHosts.docs, row.workspaceId = "acme" →
      row.state ∉ AppHostRegistry.suspensibleStates := by decide +kernel
  exact ⟨Sample.eq_pure_of_hasReturned hsuspended, hclear, Sample.eq_pure_of_hasReturned hreturned,
    Sample.eq_pure_of_hasReturned hreplaced, Pool.run_play _ _ _, hactive⟩

end PrivosCluster.Routing
