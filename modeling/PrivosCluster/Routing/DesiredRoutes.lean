import PrivosCluster.Routing.DesiredHosts
import PrivosCluster.Routing.SuspendResume

/-!
# Whether an app is exposed as desired

A request for the full set of hosts of an app is to be what the ingress nodes are told of it. A row
that the app has takes the desired state. A new row is inserted without it, and the worker puts it
in service; and an app that is left without a row falls back to its default label. The publisher
finds rows by their app id alone.
-/

namespace PrivosCluster.Routing

open AsyncProgram DocumentStore AppHostRegistry CfCustomHostnameWorker List Option System

/-- What the publisher takes from a row: its app, and whether it is suspended. -/
def publishedAs (row : AppHostRecord) : Option (String × Bool) :=
  if hostsQuery row then some (row.appId, row.state = .wsSuspended || row.state = .suspended)
  else none

def System.publishedAt (s : System) (hostname : String) : Option (String × Bool) :=
  (s.rowAt hostname).bind publishedAs

/-- Passes of the worker, one after another, in which it has done all that it found to do. -/
inductive Passes (deps : CfWorkerDeps) (s : Edge) : Edge → Prop
  | none : Passes deps s s
  | pass {s' s'' : Edge} {created deleted : Nat} (before : Passes deps s s')
    (executed : Executes (edge fun _ _ _ ↦ True) (runOnce deps) s'
      (.returned (created, deleted)) s'')
    (succeeded : deps.configured = true →
      created = s'.system.appHosts.docs.countP isToCreate ∧
        deleted = s'.system.appHosts.docs.countP isToDelete) : Passes deps s s''

/-- The app has a rule for the hostname. -/
def HostTableSnapshot.HasRule (snapshot : HostTableSnapshot) (appId hostname : String)
    (suspended : Bool) : Prop :=
  ∃ rule ∈ snapshot.rules, rule.appId = appId ∧ rule.host = hostname ∧ rule.suspended = suspended

/-- The rules of the app are those of its desired hosts. -/
def Exposes (snapshot : HostTableSnapshot) (input : SetDesiredHostsInput) : Prop :=
  ∀ hostname suspended, snapshot.HasRule input.appId hostname suspended ↔
    ∃ host, wishFor input.hosts hostname = some host ∧ suspended = (host.state == .suspended)

/-- What it takes for the hosts of an app to be exposed as desired. -/
structure Exposable (input : SetDesiredHostsInput) (app : MasterApp) (s : System) : Prop where
  /-- A host that is to be suspended has a row of the app. -/
  known : ∀ hostname host, wishFor input.hosts hostname = some host → host.state = .suspended →
    ∃ row ∈ liveRows input.workspaceId input.appId s, row.hostname = hostname
  /-- No row of another workspace is published under the app id. -/
  own : ∀ row ∈ s.appHosts.docs, row.appId = input.appId → hostsQuery row = true →
    row.workspaceId = input.workspaceId
  /-- The app has a host, or no default label. -/
  covered : input.hosts ≠ [] ∨ truthy app.subdomain = none

/-! ## The rules of an app -/

variable {appId : String} {row : AppHostRecord} {filter : AppHostRecord → Bool}

section Rules

variable {s : System} {hostname : String} {suspended : Bool}

theorem publishedAs_eq_some :
    publishedAs row = some (appId, suspended) ↔ hostsQuery row ∧ row.appId = appId ∧
      (row.state = .wsSuspended || row.state = .suspended : Bool) = suspended := by
  unfold publishedAs
  split
  next h => simp [h]
  next h => simp [h]

theorem publishedAt_eq_some :
    s.publishedAt hostname = some (appId, suspended) ↔
      ∃ row ∈ s.appHosts.docs, row.hostname = hostname ∧
        publishedAs row = some (appId, suspended) := by
  unfold publishedAt
  rw [bind_eq_some_iff]
  constructor
  · intro ⟨row, hrow, hpublished⟩
    obtain ⟨hstored, hhostname⟩ := rowAt_eq_some.mp hrow
    exact ⟨row, hstored, hhostname, hpublished⟩
  · intro ⟨row, hstored, hhostname, hpublished⟩
    exact ⟨row, rowAt_eq_some.mpr ⟨hstored, hhostname⟩, hpublished⟩

variable {baseDomain : String} {nodes : List FleetNode} {app : MasterApp}

/-- The default label of an app that has no row to show. -/
def FallsBack (baseDomain : String) (app : MasterApp) (s : System) (hostname : String)
    (suspended : Bool) : Prop :=
  (∀ other flag, s.publishedAt other ≠ some (app.appId, flag)) ∧ suspended = false ∧
    ∃ label, truthy app.subdomain = some label ∧ hostname = label ++ "." ++ baseDomain

/-- A running app has the rules of its rows, or that of its default label. -/
theorem hasRule_iff (happ : app ∈ s.world.apps.docs) (hrunning : app.state = .running) :
    (s.snapshot baseDomain nodes).HasRule app.appId hostname suspended ↔
      s.publishedAt hostname = some (app.appId, suspended) ∨
        FallsBack baseDomain app s hostname suspended := by
  have hqueried : app ∈ s.world.apps.docs.filter appsQuery :=
    mem_filter.mpr ⟨happ, by simp [appsQuery, hrunning]⟩
  have hfilter : ∀ rule, (rule ∈ (s.snapshot baseDomain nodes).rules ∧ rule.appId = app.appId) ↔
      rule ∈ rulesOf baseDomain (nodes.filter FleetNode.isRuntime)
        (s.appHosts.docs.filter hostsQuery) app := by
    intro rule
    rw [← filter_rules (distinct_apps s) hqueried, mem_filter, decide_eq_true_eq]
    rfl
  have hrow : ∀ row, row ∈ hostsByApp (s.appHosts.docs.filter hostsQuery) app.appId ↔
      row ∈ s.appHosts.docs ∧ hostsQuery row ∧ row.appId = app.appId := by
    intro row
    rw [mem_hostsByApp, mem_filter, and_assoc]
  have hrules : (s.snapshot baseDomain nodes).HasRule app.appId hostname suspended ↔
      ∃ rule ∈ rulesOf baseDomain (nodes.filter FleetNode.isRuntime)
        (s.appHosts.docs.filter hostsQuery) app, rule.host = hostname ∧
          rule.suspended = suspended := by
    constructor
    · intro ⟨rule, hrule, hid, hmatch⟩
      exact ⟨rule, (hfilter rule).mp ⟨hrule, hid⟩, hmatch⟩
    · intro ⟨rule, hrule, hmatch⟩
      obtain ⟨hmem, hid⟩ := (hfilter rule).mpr hrule
      exact ⟨rule, hmem, hid, hmatch⟩
  rw [hrules]
  unfold rulesOf
  dsimp only
  split
  next hne =>
    have hnot : ¬ FallsBack baseDomain app s hostname suspended := by
      intro ⟨hnone, _⟩
      obtain ⟨row, hmem⟩ := exists_mem_of_ne_nil _ hne
      obtain ⟨hstored, hquery, hid⟩ := (hrow row).mp hmem
      exact hnone row.hostname _ (publishedAt_eq_some.mpr
        ⟨row, hstored, rfl, publishedAs_eq_some.mpr ⟨hquery, hid, rfl⟩⟩)
    rw [or_iff_left hnot, publishedAt_eq_some]
    constructor
    · intro ⟨rule, hrule, hhost, hsuspended⟩
      obtain ⟨row, hmem, rfl⟩ := List.mem_map.mp hrule
      obtain ⟨hstored, hquery, hid⟩ := (hrow row).mp hmem
      refine ⟨row, hstored, hhost, publishedAs_eq_some.mpr ⟨hquery, hid, ?_⟩⟩
      simpa [hostRule, hrunning] using hsuspended
    · intro ⟨row, hstored, hhost, hpublished⟩
      obtain ⟨hquery, hid, hsuspended⟩ := publishedAs_eq_some.mp hpublished
      refine ⟨_, List.mem_map_of_mem ((hrow row).mpr ⟨hstored, hquery, hid⟩), hhost, ?_⟩
      simpa [hostRule, hrunning] using hsuspended
  next hempty =>
    have hnone : ∀ other flag, s.publishedAt other ≠ some (app.appId, flag) := by
      intro other flag hsome
      obtain ⟨row, hstored, -, hpublished⟩ := publishedAt_eq_some.mp hsome
      obtain ⟨hquery, hid, -⟩ := publishedAs_eq_some.mp hpublished
      have hmem := (hrow row).mpr ⟨hstored, hquery, hid⟩
      rw [not_not.mp hempty] at hmem
      exact nomatch hmem
    rw [or_iff_right (hnone _ _)]
    constructor
    · intro ⟨rule, hrule, hhost, hsuspended⟩
      obtain ⟨label, hlabel, rfl⟩ := List.mem_map.mp hrule
      refine ⟨hnone, ?_, label, mem_toList.mp hlabel, hhost.symm⟩
      simpa [fallbackRule, hrunning] using hsuspended.symm
    · intro ⟨_, hsuspended, label, hlabel, hhost⟩
      refine ⟨_, List.mem_map_of_mem (mem_toList.mpr hlabel), hhost.symm, ?_⟩
      simp [fallbackRule, hrunning, hsuspended]

end Rules

/-! ## What a replacement publishes -/

section Replacement

variable {input : SetDesiredHostsInput} {time : Time} {s s' : System} {hostname : String}

theorem cleared_of_live (h : isLiveOf input.workspaceId input.appId row) :
    cleared input (some row) = some row := by
  simp only [isLiveOf, Bool.and_eq_true, bne_iff_ne] at h
  simp [cleared, isDeadOf, h.2]

theorem cleared_of_foreign (h : row.workspaceId ≠ input.workspaceId) :
    cleared input (some row) = some row := by
  simp [cleared, isDeadOf, h]

theorem publishedAs_desiredRow {host : DesiredAppHost} :
    publishedAs (desiredRow input host time) = some (input.appId, false) :=
  publishedAs_eq_some.mpr ⟨rfl, rfl, rfl⟩

theorem publishedAs_desiredAs {host : DesiredAppHost} :
    publishedAs (desiredAs input host time row) = some (row.appId, host.state == .suspended) := by
  apply publishedAs_eq_some.mpr
  cases hstate : host.state <;> simp [desiredAs, hostsQuery, hstate, DesiredState.hostState]

theorem publishedAs_retired {row : Option AppHostRecord} {suspended : Bool} :
    (retired time row).bind publishedAs ≠ some (input.appId, suspended) := by
  intro h
  obtain ⟨other, hother, hpublished⟩ := bind_eq_some_iff.mp h
  obtain ⟨row, -, rfl⟩ := map_eq_some_iff.mp hother
  cases hpublished

/-- A desired host is published; it is suspended only on a row that the app had. -/
theorem Replaced.publishedAt_wished (h : Replaced input time s s') {host : DesiredAppHost}
    (hwish : wishFor input.hosts hostname = some host) :
    s'.publishedAt hostname = some (input.appId,
      (s.rowAt hostname).any (isLiveOf input.workspaceId input.appId) &&
        host.state == .suspended) := by
  obtain ⟨hhost, rfl⟩ := of_wishFor hwish
  have hkept : isRemoved input host.hostname (cleared input (s.rowAt host.hostname)) = false := by
    simp [isRemoved, hwish]
  have hrow : s'.rowAt host.hostname =
      wished input time (some host) (cleared input (s.rowAt host.hostname)) := by
    rw [h.rows, replacedRow, hkept, hwish]
    rfl
  have hgranted := h.granted host hhost
  unfold publishedAt
  rw [hrow]
  cases hbefore : s.rowAt host.hostname with
  | none => exact publishedAs_desiredRow
  | some row =>
    rw [hbefore] at hgranted
    cases hlive : isLiveOf input.workspaceId input.appId row with
    | true =>
      have hid : row.appId = input.appId := by
        simp only [isLiveOf, Bool.and_eq_true, beq_iff_eq] at hlive
        exact hlive.1.2
      rw [cleared_of_live hlive, any_some, hlive, ← hid]
      exact publishedAs_desiredAs
    | false =>
      have hgone : cleared input (some row) = none := by
        rw [eq_none_iff_forall_ne_some]
        intro other hother
        obtain rfl : row = other := some.inj (filter_eq_some_iff.mp hother).1
        rw [hgranted row hother] at hlive
        cases hlive
      rw [hgone, any_some, hlive]
      exact publishedAs_desiredRow

/-- A hostname that is not desired is published for rows of other workspaces only. -/
theorem Replaced.publishedAt_unwished (h : Replaced input time s s')
    (hunwished : wishFor input.hosts hostname = none) {suspended : Bool} :
    s'.publishedAt hostname = some (input.appId, suspended) ↔
      ∃ row, s.rowAt hostname = some row ∧ row.workspaceId ≠ input.workspaceId ∧
        publishedAs row = some (input.appId, suspended) := by
  have hrow : s'.rowAt hostname =
      if (cleared input (s.rowAt hostname)).any (isLiveOf input.workspaceId input.appId) then
        retired time (cleared input (s.rowAt hostname))
      else cleared input (s.rowAt hostname) := by
    rw [h.rows, replacedRow, isRemoved, hunwished]
    rfl
  unfold publishedAt
  rw [hrow]
  cases hbefore : s.rowAt hostname with
  | none => simp [cleared]
  | some row =>
    by_cases hforeign : row.workspaceId = input.workspaceId
    · -- a row of the workspace is being deleted, or is one of another app
      have hnot : ¬ ∃ other, some row = some other ∧ other.workspaceId ≠ input.workspaceId ∧
          publishedAs other = some (input.appId, suspended) := by
        rintro ⟨other, hsame, hother, -⟩
        exact hother (some.inj hsame ▸ hforeign)
      rw [iff_false_right hnot]
      cases hlive : isLiveOf input.workspaceId input.appId row with
      | true =>
        rw [cleared_of_live hlive, any_some, hlive]
        exact publishedAs_retired
      | false =>
        intro hpublished
        obtain ⟨other, hother, hpublished⟩ := bind_eq_some_iff.mp hpublished
        have hnone : ¬ (cleared input (some row)).any
            (isLiveOf input.workspaceId input.appId) = true := by
          simp [cleared, Option.any_filter, hlive]
        rw [if_neg hnone] at hother
        obtain rfl : row = other := some.inj (filter_eq_some_iff.mp hother).1
        obtain ⟨hquery, hid, -⟩ := publishedAs_eq_some.mp hpublished
        have hstate : row.state ≠ .deleting := by
          intro hdeleting
          simp [hostsQuery, hdeleting] at hquery
        simp [isLiveOf, hforeign, hid, hstate] at hlive
    · have hdead : isLiveOf input.workspaceId input.appId row = false := by
        simp [isLiveOf, hforeign]
      rw [cleared_of_foreign hforeign, any_some, hdead]
      simp [hforeign]

end Replacement

/-! ## What a pass publishes -/

variable {α : Type} {p : EdgeAction α} {id : String}

section Pass

variable {published : String → Option (String × Bool)} {host : AppHostRecord}

/-- Nothing that the publisher takes from the rows changes at the call. -/
def SparesPublished (c : EdgeCall) : Prop :=
  ∀ x s hostname,
    (Edge.respond c x s).2.system.publishedAt hostname = s.system.publishedAt hostname

def Publishes (published : String → Option (String × Bool)) (s : Edge) : Prop :=
  ∀ hostname, s.system.publishedAt hostname = published hostname

theorem publishedAt_congr {s s' : System} (h : s'.appHosts = s.appHosts)
    (hostname : String) : s'.publishedAt hostname = s.publishedAt hostname := by
  unfold publishedAt
  rw [rowAt_congr h]

theorem spares_cloudflare (request : CloudflareRequest) :
    SparesPublished (.cloudflare request) := by
  intro x s hostname
  rw [respond_cloudflare_system]

theorem spares_sleep (ms : Nat) : SparesPublished (.sleep ms) := fun _ _ _ ↦ rfl

theorem spares_system {c : SystemCall} (hc : SparesRows c) : SparesPublished (.system c) :=
  fun x s ↦ publishedAt_congr (respond_appHosts hc x.system s.system)

/-- An update of one row that the publisher does not see. -/
theorem spares_updateOne {update : AppHostRecord → AppHostRecord}
    (hid : ∀ row, (update row).hostname = row.hostname)
    (hupdate : ∀ row, publishedAs (update row) = publishedAs row) :
    SparesPublished (.system (.appHosts (.one (.updateOne (isOf host) update)))) := by
  intro x s hostname
  have hfilter : ∀ row : AppHostRecord, isOf host row = true →
      appHostIdentity.id row = host.hostname := fun _ h ↦ beq_iff_eq.mp h
  let seen (rows : Collection AppHostRecord appHostKeys) : Option (String × Bool) :=
    (rows.lookup appHostIdentity hostname).bind publishedAs
  have hafter : ∀ rows : Collection AppHostRecord appHostKeys,
      rows.docs = updateFirst (isOf host) update s.system.appHosts.docs →
      seen rows = seen s.system.appHosts := by
    intro rows hdocs
    have hlookup := Collection.lookup_of_updateFirst (I := appHostIdentity) (b := hostname) hdocs
      hfilter hid
    simp only [seen, hlookup, bind_map]
    congr 1
    funext row
    simp only [Function.comp_apply]
    split
    · exact hupdate row
    · rfl
  apply serveBulk_applies (P := fun rows ↦ seen rows = seen s.system.appHosts) _ x.system rfl
  simp only [Collection.applyBulk, Collection.apply]
  split
  · rfl
  next row _ =>
    rcases Collection.put_docs s.system.appHosts x.system.pick
      (updateFirst (isOf host) update s.system.appHosts.docs) (update row)
      (UpdateResult.mk 1 (if update row = row then 0 else 1)) with hdocs | hdocs
    · exact hafter _ hdocs
    · simp only [seen]
      rw [Collection.lookup_congr hdocs]

theorem spares_deleteMany (hfilter : ∀ row, filter row = true → publishedAs row = none) :
    SparesPublished (.system (.appHosts (.deleteMany filter))) := by
  intro x s hostname
  let seen (rows : Collection AppHostRecord appHostKeys) : Option (String × Bool) :=
    (rows.lookup appHostIdentity hostname).bind publishedAs
  apply serveBulk_applies (P := fun rows ↦ seen rows = seen s.system.appHosts) _ x.system rfl
  have hlookup : (s.system.appHosts.remove filter).lookup appHostIdentity hostname =
      (s.system.appHosts.lookup appHostIdentity hostname).filter fun row ↦ !filter row :=
    Collection.lookup_of_remove rfl
  simp only [seen, Collection.applyBulk, hlookup]
  cases s.system.appHosts.lookup appHostIdentity hostname with
  | none => rfl
  | some row =>
    cases hmatch : filter row with
    | true => simp [Option.filter, hmatch, hfilter row hmatch]
    | false => simp [Option.filter, hmatch]

theorem asks_noted : AsyncProgram.Asks SparesPublished (write (isOf host) notedAs) := by
  apply asks_onEdge
  apply Asks.bind
  · exact Asks.ask (σ := systemSignature) (c := .master (.service .now)) (spares_system trivial)
  · intro time
    apply Asks.bind
    · exact Asks.ask (σ := systemSignature) (c := .appHosts (.one (.updateOne _ _)))
        (spares_updateOne (fun _ ↦ rfl) fun _ ↦ rfl)
    · exact fun _ ↦ trivial

/-- A row that is to go is not published. -/
theorem asks_delete : AsyncProgram.Asks SparesPublished (delete host) := by
  apply Asks.tryCatch
  · apply (deleteRemote_asks (fun _ ↦ spares_cloudflare _) spares_sleep).bind
    intro _
    apply Asks.bind
    · apply asks_onEdge
      apply Asks.bind
      · apply Asks.ask (σ := systemSignature) (c := .appHosts (.deleteMany _))
        apply spares_deleteMany
        intro row hrow
        have hstate : row.state = .deleting := by simpa using (Bool.and_eq_true_iff.mp hrow).2
        simp [publishedAs, hostsQuery, hstate]
      · exact fun _ ↦ trivial
    · exact fun _ ↦ trivial
  · exact fun _ ↦ asks_noted.bind fun _ ↦ trivial

theorem wp_spared {s : Edge} (hp : AsyncProgram.Asks SparesPublished p)
    (hs : Publishes published s) :
    wp (edge fun _ _ _ ↦ True) (fun _ _ _ ↦ True) (fun _ ↦ Publishes published) p s := by
  have hkept := hp.wp (m := edge fun _ _ _ ↦ True) (I := Publishes published)
    (fun c x s hc _ hs hostname ↦ (hc x s hostname).trans (hs hostname)) hs
  exact wp_mono (fun _ _ _ _ ↦ trivial) (fun _ _ h ↦ h) hkept

/-- A row that is recorded with its custom hostname is published as it was read. -/
theorem publishedAs_recordedAs {time : Time} (hstate : host.state ∈ suspensibleStates)
    (hrow : publishedAs row = publishedAs host) :
    publishedAs (recordedAs host id time row) = publishedAs host := by
  have hid : row.appId = host.appId := by
    have hhost : hostsQuery host = true := by
      simp only [suspensibleStates, mem_cons, not_mem_nil, or_false] at hstate
      rcases hstate with hstate | hstate | hstate <;> simp [hostsQuery, hstate]
    have hsome : publishedAs host =
        some (host.appId, (host.state = .wsSuspended || host.state = .suspended : Bool)) :=
      publishedAs_eq_some.mpr ⟨hhost, rfl, rfl⟩
    rw [hsome] at hrow
    exact (publishedAs_eq_some.mp hrow).2.1
  simp only [suspensibleStates, mem_cons, not_mem_nil, or_false] at hstate
  rcases hstate with hstate | hstate | hstate <;>
    simp [publishedAs, recordedAs, hostsQuery, hstate, hid]

theorem wp_recorded {s : Edge} (hstate : host.state ∈ suspensibleStates)
    (hhost : published host.hostname = publishedAs host) (hs : Publishes published s) :
    wp (edge fun _ _ _ ↦ True) (fun _ _ _ ↦ True)
      (onOutcome (fun _ ↦ Publishes published) fun _ _ ↦ True)
      (write (isOf host) (recordedAs host id)) s := by
  have hwrite : Finishes (onOutcome (fun _ s' ↦ ∀ hostname, s'.publishedAt hostname =
      published hostname) fun _ _ ↦ True)
      (systemNow >>= fun time ↦ AppHosts.updateOne (isOf host) (recordedAs host id time) >>=
        fun _ ↦ .pure ()) s.system := by
    apply finishes_bind.mpr
    apply finishes_now.mpr
    intro elapsed
    have hupdate := @updateOne_rows (s.system.tick elapsed) host.hostname
      (recordedAs host id (s.system.world.clock + elapsed)) fun _ ↦ rfl
    apply hupdate.bind
    · intro _ s' hrows hostname
      have hbefore : s.system.publishedAt hostname = published hostname := hs hostname
      rw [← hbefore]
      unfold publishedAt
      rw [hrows]
      split
      next hsame =>
        subst hsame
        have hpublished : (s.system.rowAt host.hostname).bind publishedAs = publishedAs host :=
          (hs host.hostname).trans hhost
        change ((s.system.rowAt host.hostname).map _).bind publishedAs = _
        cases hrow : s.system.rowAt host.hostname with
        | none => rfl
        | some row =>
          rw [hrow] at hpublished
          exact (publishedAs_recordedAs hstate hpublished).trans hpublished.symm
      next => rfl
    · exact fun _ _ _ ↦ trivial
  apply (wp.onEdge (fun _ _ _ _ ↦ trivial) hwrite).imp
  intro r s' hr
  cases r with
  | error e => trivial
  | ok _ => exact hr

theorem wp_anything {s : Edge} :
    wp (edge fun _ _ _ ↦ True) (fun _ _ _ ↦ True) (fun _ _ ↦ True) p s :=
  wp_of_executes fun _ _ _ ↦ trivial

/-- A custom hostname that is created changes nothing that is published. -/
theorem create_publishes {s : Edge} (hstate : host.state ∈ suspensibleStates)
    (hhost : published host.hostname = publishedAs host) (hs : Publishes published s) :
    wp (edge fun _ _ _ ↦ True) (fun _ _ _ ↦ True)
      (onOutcome (fun created s' ↦ created = true → Publishes published s') fun _ _ ↦ True)
      (create host) s := by
  have hrecord : ∀ id s', Publishes published s' →
      wp (edge fun _ _ _ ↦ True) (fun _ _ _ ↦ True)
        (onOutcome (fun created s' ↦ created = true → Publishes published s') fun _ _ ↦ True)
        (write (isOf host) (recordedAs host id) >>= fun _ ↦ .pure true) s' := by
    intro id s' hs'
    apply (wp_recorded hstate hhost hs').bind
    · exact fun _ _ h _ ↦ h
    · exact fun _ _ _ ↦ trivial
  have hapi : ∀ request, AsyncProgram.Asks SparesPublished (api request) :=
    fun request ↦ api_asks (spares_cloudflare request) spares_sleep
  have hregister : wp (edge fun _ _ _ ↦ True) (fun _ _ _ ↦ True)
      (onOutcome (fun created s' ↦ created = true → Publishes published s') fun _ _ ↦ True)
      (register host) s := by
    have hfind : AsyncProgram.Asks SparesPublished (findExisting host.hostname) :=
      (hapi _).bind fun _ ↦ trivial
    apply (wp_spared hfind hs).bind
    · intro existing s' hs'
      cases existing with
      | some existing =>
        dsimp only
        split
        · exact hrecord _ _ hs'
        · apply wp_anything.bind
          · exact fun _ _ _ h ↦ nomatch h
          · exact fun _ _ _ ↦ trivial
      | none =>
        apply (wp_spared (hapi _) hs').bind
        · exact fun created s'' hs'' ↦ hrecord _ _ hs''
        · exact fun _ _ _ ↦ trivial
    · exact fun _ _ _ ↦ trivial
  apply wp_tryCatch.mpr
  apply hregister.imp
  intro r s' hr
  cases r with
  | ok created => exact hr
  | error e =>
    apply wp_anything.bind
    · exact fun _ _ _ h ↦ nomatch h
    · exact fun _ _ _ ↦ trivial

/-- The rows that are found. -/
theorem wp_find {s : Edge} (hs : Publishes published s) :
    wp (edge fun _ _ _ ↦ True) (fun _ _ _ ↦ True)
      (onOutcome (fun rows s' ↦ rows = s.system.appHosts.docs.filter filter ∧
        Publishes published s') fun _ _ ↦ True) (onEdge (AppHosts.find filter)) s := by
  have hfind : Finishes (onOutcome (fun rows s' ↦ rows = s.system.appHosts.docs.filter filter ∧
      ∀ hostname, s'.publishedAt hostname = published hostname) fun _ _ ↦ True)
      (AppHosts.find filter) s.system := by
    apply finishes_await.mpr
    intro x
    simp only [System.respond, serveBulk_one, serveStore_find]
    split
    · exact ⟨rfl, hs⟩
    · trivial
  apply (wp.onEdge (fun _ _ _ _ ↦ trivial) hfind).imp
  intro r s' hr
  cases r with
  | error e => trivial
  | ok rows => exact hr

/-- A pass that creates all it finds to create publishes what was published before. -/
theorem pass_publishes {s : Edge} (hs : Publishes published s) :
    wp (edge fun _ _ _ ↦ True) (fun _ _ _ ↦ True)
      (onOutcome (fun counts s' ↦ counts.1 = s.system.appHosts.docs.countP isToCreate →
        Publishes published s') fun _ _ ↦ True) pass s := by
  apply (wp_find hs).bind
  · rintro toCreate s₁ ⟨rfl, hs₁⟩
    apply (wp_find hs₁).bind
    · intro toDelete s₂ hfound
      have hcreate : wp (edge fun _ _ _ ↦ True) (fun _ _ _ ↦ True)
          (onOutcome (fun bs s' ↦ bs.length = (s.system.appHosts.docs.filter isToCreate).length ∧
            ((∀ b ∈ bs, b = true) → Publishes published s')) fun _ _ ↦ True)
          (Program.mapEach create (s.system.appHosts.docs.filter isToCreate)) s₂ := by
        apply wp_mapEach (I := fun visited bs s' ↦ bs.length = visited.length ∧
          ((∀ b ∈ bs, b = true) → Publishes published s'))
        · intro visited host rest bs s' hhosts ⟨hlength, hpublishes⟩
          have hhost : host ∈ s.system.appHosts.docs.filter isToCreate := by simp [hhosts]
          obtain ⟨hstored, htocreate⟩ := mem_filter.mp hhost
          have hstate : host.state ∈ suspensibleStates := by
            simp only [isToCreate, Bool.and_eq_true] at htocreate
            simpa using htocreate.1.2
          have hread : published host.hostname = publishedAs host := by
            rw [← hs host.hostname, publishedAt, rowAt_eq_some.mpr ⟨hstored, rfl⟩]
            rfl
          by_cases hall : ∀ b ∈ bs, b = true
          · apply (create_publishes hstate hread (hpublishes hall)).imp
            intro r s'' hr
            cases r with
            | error e => trivial
            | ok created => exact ⟨by simp [hlength], fun h ↦ hr (h created (by simp))⟩
          · apply wp_anything.imp
            intro r s'' _
            cases r with
            | error e => trivial
            | ok created =>
              refine ⟨by simp [hlength], fun h ↦ absurd ?_ hall⟩
              exact fun b hb ↦ h b (mem_append_left _ hb)
        · exact ⟨rfl, fun _ ↦ hfound.2⟩
      apply hcreate.bind
      · intro bs s₃ ⟨hlength, hpublishes⟩
        by_cases hall : ∀ b ∈ bs, b = true
        · apply (wp_spared (Asks.mapEach fun _ _ ↦ asks_delete) (hpublishes hall)).bind
          · exact fun _ _ hs' _ ↦ hs'
          · exact fun _ _ _ ↦ trivial
        · apply wp_anything.bind
          · intro deleted s' _ hcount
            rw [countP_eq_length_filter, ← hlength] at hcount
            exact absurd (fun b hb ↦ (count_eq_length.mp hcount b hb).symm) hall
          · exact fun _ _ _ ↦ trivial
      · exact fun _ _ _ ↦ trivial
    · exact fun _ _ _ ↦ trivial
  · exact fun _ _ _ ↦ trivial

end Pass

/-- Passes that succeed publish what was published before. -/
theorem Passes.publishes {deps : CfWorkerDeps} {s s' : Edge} (h : Passes deps s s')
    (hostname : String) : s'.system.publishedAt hostname = s.system.publishedAt hostname := by
  induction h with
  | none => rfl
  | @pass s' s'' created deleted before executed succeeded ih =>
    rw [← ih]
    unfold runOnce at executed
    split at executed
    next hconfigured =>
      have hpass := executed.post_returned (pass_publishes (s := s') fun _ ↦ rfl)
      exact hpass (succeeded hconfigured).1 hostname
    next => cases executed; rfl

/-! ## Exposed as desired -/

section Exposed

variable {input : SetDesiredHostsInput} {time : Time} {app : MasterApp} {baseDomain : String}
  {nodes : List FleetNode} {s s' s'' : System}

theorem live_of_any {row : Option AppHostRecord} {hostname : String}
    (hrow : s.rowAt hostname = row)
    (h : row.any (isLiveOf input.workspaceId input.appId) = true) :
    ∃ row ∈ liveRows input.workspaceId input.appId s, row.hostname = hostname := by
  cases row with
  | none => cases h
  | some row =>
    obtain ⟨hstored, hhostname⟩ := rowAt_eq_some.mp hrow
    exact ⟨row, mem_filter.mpr ⟨hstored, h⟩, hhostname⟩

theorem any_of_live {hostname : String}
    (h : ∃ row ∈ liveRows input.workspaceId input.appId s, row.hostname = hostname) :
    (s.rowAt hostname).any (isLiveOf input.workspaceId input.appId) = true := by
  obtain ⟨row, hrow, hhostname⟩ := h
  obtain ⟨hstored, hlive⟩ := mem_filter.mp hrow
  rw [rowAt_eq_some.mpr ⟨hstored, hhostname⟩]
  exact hlive

/-- A published row of another workspace is none of a desired host, and stays. -/
theorem Replaced.publishedAt_foreign (h : Replaced input time s s')
    (hstored : row ∈ s.appHosts.docs) (hid : row.appId = input.appId)
    (hquery : hostsQuery row = true) (hforeign : row.workspaceId ≠ input.workspaceId) :
    wishFor input.hosts row.hostname = none ∧
      ∃ flag, s'.publishedAt row.hostname = some (input.appId, flag) := by
  have hrow : s.rowAt row.hostname = some row := rowAt_eq_some.mpr ⟨hstored, rfl⟩
  have hunwished : wishFor input.hosts row.hostname = none := by
    cases hwish : wishFor input.hosts row.hostname with
    | none => rfl
    | some host =>
      obtain ⟨hhost, hsame⟩ := of_wishFor hwish
      have hkept : cleared input (s.rowAt host.hostname) = some row := by
        rw [hsame, hrow]
        exact cleared_of_foreign hforeign
      have hlive := h.granted host hhost row hkept
      simp [isLiveOf, hforeign] at hlive
  have hseen : publishedAs row =
      some (input.appId, (row.state = .wsSuspended || row.state = .suspended : Bool)) :=
    publishedAs_eq_some.mpr ⟨hquery, hid, rfl⟩
  exact ⟨hunwished, _, (h.publishedAt_unwished hunwished).mpr ⟨row, hrow, hforeign, hseen⟩⟩

variable (happ : app ∈ s''.world.apps.docs) (hid : app.appId = input.appId)
  (hrunning : app.state = .running) (replaced : Replaced input time s s')
  (hpublished : ∀ hostname, s''.publishedAt hostname = s'.publishedAt hostname)

include happ hid hrunning replaced hpublished

theorem exposable_of_exposes (h : Exposes (s''.snapshot baseDomain nodes) input) :
    Exposable input app s := by
  have hrule : ∀ hostname flag, s'.publishedAt hostname = some (input.appId, flag) →
      ∃ host, wishFor input.hosts hostname = some host ∧ flag = (host.state == .suspended) := by
    intro hostname flag hsome
    apply (h hostname flag).mp
    rw [← hid] at hsome ⊢
    exact (hasRule_iff happ hrunning).mpr (.inl ((hpublished hostname).trans hsome))
  refine ⟨?_, ?_, ?_⟩
  · intro hostname host hwish hstate
    have hat := replaced.publishedAt_wished hwish
    obtain ⟨host', hwish', hflag⟩ := hrule hostname _ hat
    obtain rfl : host = host' := some.inj (hwish.symm.trans hwish')
    apply live_of_any rfl
    simpa [hstate] using hflag
  · intro row hstored hrowId hquery
    by_contra hforeign
    obtain ⟨hunwished, flag, hat⟩ := replaced.publishedAt_foreign hstored hrowId hquery hforeign
    obtain ⟨host, hwish, -⟩ := hrule row.hostname flag hat
    rw [hunwished] at hwish
    cases hwish
  · by_contra hnot
    rw [not_or, not_not] at hnot
    obtain ⟨hempty, hlabel⟩ := hnot
    have hunwished : ∀ hostname, wishFor input.hosts hostname = none := by
      intro hostname
      rw [hempty]
      rfl
    obtain ⟨label, hlabel⟩ := ne_none_iff_exists'.mp hlabel
    have hfallsBack : FallsBack baseDomain app s'' (label ++ "." ++ baseDomain) false := by
      refine ⟨?_, rfl, label, hlabel, rfl⟩
      intro other flag hsome
      rw [hid, hpublished] at hsome
      obtain ⟨host, hwish, -⟩ := hrule other flag hsome
      rw [hunwished] at hwish
      cases hwish
    have hrule' := (@hasRule_iff _ _ _ _ nodes _ happ hrunning).mpr (.inr hfallsBack)
    rw [hid] at hrule'
    obtain ⟨host, hwish, -⟩ := (h _ _).mp hrule'
    rw [hunwished] at hwish
    cases hwish

theorem exposes_of_exposable (h : Exposable input app s) :
    Exposes (s''.snapshot baseDomain nodes) input := by
  have hwished : ∀ hostname host, wishFor input.hosts hostname = some host →
      s''.publishedAt hostname = some (app.appId, host.state == .suspended) := by
    intro hostname host hwish
    rw [hpublished, hid, replaced.publishedAt_wished hwish]
    cases hstate : host.state with
    | active => simp
    | suspended => simp [any_of_live (h.known hostname host hwish hstate)]
  intro hostname flag
  rw [← hid, hasRule_iff happ hrunning]
  cases hwish : wishFor input.hosts hostname with
  | some host =>
    have hnot : ¬ FallsBack baseDomain app s'' hostname flag :=
      fun hfallsBack ↦ hfallsBack.1 hostname _ (hwished hostname host hwish)
    rw [or_iff_left hnot, hwished hostname host hwish]
    simp [eq_comm]
  | none =>
    have hnone : ¬ ∃ host, (none : Option DesiredAppHost) = some host ∧
        flag = (host.state == .suspended) := fun ⟨_, hsome, _⟩ ↦ nomatch hsome
    rw [iff_false_right hnone, not_or]
    constructor
    · intro hsome
      rw [hpublished, hid] at hsome
      obtain ⟨row, hrow, hforeign, hpublishedAs⟩ := (replaced.publishedAt_unwished hwish).mp hsome
      obtain ⟨hquery, hrowId, -⟩ := publishedAs_eq_some.mp hpublishedAs
      exact hforeign (h.own row (rowAt_eq_some.mp hrow).1 hrowId hquery)
    · intro ⟨hunpublished, _, label, hlabel, _⟩
      have hne : input.hosts ≠ [] := by
        apply h.covered.resolve_right
        rw [hlabel]
        exact some_ne_none label
      obtain ⟨first, hfirst⟩ := exists_mem_of_ne_nil _ hne
      cases hwish' : wishFor input.hosts first.hostname with
      | none => exact wishFor_eq_none_iff.mp hwish' first hfirst rfl
      | some host => exact hunpublished first.hostname _ (hwished first.hostname host hwish')

end Exposed

/--
After a request for the hosts of a running app that returned, and any passes of the worker that
succeeded, the app is exposed as desired exactly where its rows and its default label allow it.
-/
theorem exposes_iff (deps : EdgeDeps) (input : SetDesiredHostsInput) (s s₁ s₂ : Edge)
    (request : Executes (edge fun _ _ _ ↦ True)
      ((RegistryOperation.setDesiredHosts input).program deps) s (.returned ()) s₁)
    (passes : Passes deps.worker s₁ s₂) (app : MasterApp)
    (happ : app ∈ s₂.system.world.apps.docs) (hid : app.appId = input.appId)
    (hrunning : app.state = .running) (baseDomain : String) (nodes : List FleetNode) :
    Exposes (s₂.system.snapshot baseDomain nodes) input ↔ Exposable input app s.system := by
  have hrequest : wp (edge fun _ _ _ ↦ True) (fun _ _ _ ↦ True)
      (onOutcome (fun _ s' ↦ ∃ time, Replaced input time s.system s'.system) fun _ _ ↦ True)
      ((RegistryOperation.setDesiredHosts input).program deps) s := by
    apply (wp.onEdge (fun _ _ _ _ ↦ trivial) (setDesiredHosts_rows deps.registry)).bind
    · exact fun _ _ h ↦ h
    · exact fun _ _ _ ↦ trivial
  obtain ⟨time, replaced⟩ := request.post_returned hrequest
  constructor
  · exact exposable_of_exposes happ hid hrunning replaced passes.publishes
  · exact exposes_of_exposable happ hid hrunning replaced passes.publishes

namespace Sample

/-- One pass of the worker, where the environment does as it is asked. -/
def passRun (s : Edge) : Except JsError (Nat × Nat) × Edge :=
  (edge fun _ _ _ ↦ True).run (fun _ _ ↦ {}) (runOnce edgeDeps.worker) s

theorem passRun_passes {s : Edge} (h : (passRun s).1.toOption =
    some (s.system.appHosts.docs.countP isToCreate, s.system.appHosts.docs.countP isToDelete)) :
    Passes edgeDeps.worker s (passRun s).2 := by
  have hexecutes := (edge fun _ _ _ ↦ True).executes_run (fun _ _ ↦ {}) (fun _ _ ↦ trivial)
    (runOnce edgeDeps.worker) s
  change Executes _ _ _ (.ofExcept (passRun s).1) (passRun s).2 at hexecutes
  cases hanswer : (passRun s).1 with
  | error e =>
    rw [hanswer] at h
    cases h
  | ok counts =>
    rw [hanswer] at h hexecutes
    obtain rfl := some.inj h
    exact .pass .none hexecutes fun _ ↦ ⟨rfl, rfl⟩

/-- A running app with a custom host. -/
def running : Edge where
  system :=
    { world := PrivosCluster.Sample.world (PrivosCluster.Sample.app none .running none)
        PrivosCluster.Sample.nodup_running
      appHosts := ⟨[customRow], nodup_customRow⟩
      hostLabels := ⟨[], List.nodup_nil⟩ }
  customHostnames := [⟨"cf-1", "notes.acme.test", some "notes.acme.test"⟩]
  issued := [⟨"cf-1", "notes.acme.test", some "notes.acme.test"⟩]

def desiring (hosts : List DesiredAppHost) : SetDesiredHostsInput :=
  { workspaceId := "acme", appId := "notes", listingId := "listing", hosts }

/-- The host is to be suspended, and there is to be another one. -/
def suspendedAndNew : SetDesiredHostsInput :=
  desiring [⟨"notes.acme.test", .custom, true, .suspended⟩,
    ⟨"shop.acme.test", .custom, false, .active⟩]

/-- There is to be another host, suspended from the start. -/
def newSuspended : SetDesiredHostsInput := desiring [⟨"shop.acme.test", .custom, false, .suspended⟩]

/-- The request, and a pass of the worker. -/
def requested (input : SetDesiredHostsInput) : Edge := (edgeRun (.setDesiredHosts input) running).2

end Sample

/-- A host that the app has is suspended, and a new one put in service. -/
theorem exposes_iff_known :
    Exposes ((Sample.passRun (Sample.requested Sample.suspendedAndNew)).2.system.snapshot
      "privos.test" []) Sample.suspendedAndNew := by
  have hrequest : Executes _ _ Sample.running (.returned ())
      (Sample.requested Sample.suspendedAndNew) := Sample.edgeRun_executes (by decide +kernel)
  have hpasses : Passes _ (Sample.requested Sample.suspendedAndNew) _ :=
    Sample.passRun_passes (by decide +kernel)
  apply (exposes_iff Sample.edgeDeps Sample.suspendedAndNew Sample.running _ _ hrequest hpasses
    (PrivosCluster.Sample.app none .running none) (by decide +kernel) rfl rfl "privos.test" []).mpr
  refine ⟨?_, ?_, .inl (cons_ne_nil _ _)⟩
  · intro hostname host hwish hstate
    obtain ⟨hhost, rfl⟩ := of_wishFor hwish
    have hhosts : host = ⟨"notes.acme.test", .custom, true, .suspended⟩ ∨
        host = ⟨"shop.acme.test", .custom, false, .active⟩ := by
      simpa [Sample.suspendedAndNew, Sample.desiring] using hhost
    rcases hhosts with rfl | rfl
    · exact ⟨Sample.customRow, by decide +kernel, rfl⟩
    · cases hstate
  · intro row hrow _ _
    obtain rfl : row = Sample.customRow := mem_singleton.mp hrow
    rfl

/-- A new host that is to be suspended is put in service. -/
theorem exposes_new_suspended :
    Executes (edge fun _ _ _ ↦ True)
        ((RegistryOperation.setDesiredHosts Sample.newSuspended).program Sample.edgeDeps)
        Sample.running (.returned ()) (Sample.requested Sample.newSuspended) ∧
      Passes Sample.edgeDeps.worker (Sample.requested Sample.newSuspended)
        (Sample.passRun (Sample.requested Sample.newSuspended)).2 ∧
      ¬ Exposes ((Sample.passRun (Sample.requested Sample.newSuspended)).2.system.snapshot
        "privos.test" []) Sample.newSuspended := by
  refine ⟨Sample.edgeRun_executes (by decide +kernel),
    Sample.passRun_passes (by decide +kernel), ?_⟩
  intro h
  have hrule : HostTableSnapshot.HasRule
      ((Sample.passRun (Sample.requested Sample.newSuspended)).2.system.snapshot "privos.test" [])
      "notes" "shop.acme.test" false := by
    refine ⟨⟨"shop.acme.test", "notes", "acme", [], false⟩, ?_, rfl, rfl, rfl⟩
    decide +kernel
  obtain ⟨host, hwish, hactive⟩ := (h "shop.acme.test" false).mp hrule
  obtain ⟨hhost, -⟩ := of_wishFor hwish
  obtain rfl := mem_singleton.mp hhost
  cases hactive

end PrivosCluster.Routing
