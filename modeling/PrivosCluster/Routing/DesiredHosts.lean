import PrivosCluster.Routing.HostReplacement

/-!
# The rows after a replacement of hosts

A request for the full set of hosts of an app that returns has decided every row of the app: the
desired hosts are there, the others are gone or being deleted. What becomes of a hostname depends on
its own row and on the last wish for it alone.
-/

namespace PrivosCluster.Routing

open AsyncProgram DocumentStore AppHostRegistry List System

/-- The row of a hostname. -/
def System.rowAt (s : System) (hostname : String) : Option AppHostRecord :=
  s.appHosts.lookup appHostIdentity hostname

/-- The last wish for a hostname. -/
def wishFor (hosts : List DesiredAppHost) (hostname : String) : Option DesiredAppHost :=
  hosts.reverse.find? (·.hostname == hostname)

/-- A row that has nothing left to tear down is removed first. -/
def cleared (input : SetDesiredHostsInput) (row : Option AppHostRecord) : Option AppHostRecord :=
  row.filter fun row ↦ !isDeadOf input.workspaceId input.appId row

/-- A desired host has its row updated, or inserted. -/
def wished (input : SetDesiredHostsInput) (time : Time) :
    Option DesiredAppHost → Option AppHostRecord → Option AppHostRecord
  | none, row => row
  | some host, some row => some (desiredAs input host time row)
  | some host, none => some (desiredRow input host time)

/-- A row taken out of service. -/
def retired (time : Time) (row : Option AppHostRecord) : Option AppHostRecord :=
  (row.filter fun row ↦ row.cfHostnameId.isSome).map (retiredAs time)

/-- The app has a row with a hostname that is not desired. -/
def isRemoved (input : SetDesiredHostsInput) (hostname : String) (row : Option AppHostRecord) :
    Bool :=
  (wishFor input.hosts hostname).isNone && row.any (isLiveOf input.workspaceId input.appId)

/-- What becomes of the row of a hostname. -/
def replacedRow (input : SetDesiredHostsInput) (time : Time) (hostname : String)
    (row : Option AppHostRecord) : Option AppHostRecord :=
  if isRemoved input hostname (cleared input row) then retired time (cleared input row)
  else wished input time (wishFor input.hosts hostname) (cleared input row)

/-- The rows after a replacement of the hosts of an app. -/
structure Replaced (input : SetDesiredHostsInput) (time : Time) (s s' : System) : Prop where
  rows : ∀ hostname, s'.rowAt hostname = replacedRow input time hostname (s.rowAt hostname)
  /-- No other row was in the way of a desired host. -/
  granted : ∀ host ∈ input.hosts, ∀ row, cleared input (s.rowAt host.hostname) = some row →
    isLiveOf input.workspaceId input.appId row = true

/-! ## Looking rows up -/

variable {row : AppHostRecord} {hosts visited : List DesiredAppHost} {wish : Option DesiredAppHost}

section Lookup

variable {s s' : System} {hostname : String}

theorem rowAt_eq_some :
    s.rowAt hostname = some row ↔ row ∈ s.appHosts.docs ∧ row.hostname = hostname :=
  Collection.lookup_eq_some

theorem rowAt_congr (h : s'.appHosts = s.appHosts) :
    s'.rowAt hostname = s.rowAt hostname := by
  unfold rowAt
  rw [h]

theorem wishFor_snoc (hosts : List DesiredAppHost) (host : DesiredAppHost) (hostname : String) :
    wishFor (hosts ++ [host]) hostname =
      if host.hostname = hostname then some host else wishFor hosts hostname := by
  simp only [wishFor, reverse_append, reverse_singleton, singleton_append,
    find?_cons]
  by_cases h : host.hostname = hostname
  · simp [h]
  · have hother : (host.hostname == hostname) = false := by simpa using h
    rw [hother, if_neg h]

theorem wishFor_eq_none_iff :
    wishFor hosts hostname = none ↔ ∀ host ∈ hosts, host.hostname ≠ hostname := by
  simp [wishFor]

theorem of_wishFor {host : DesiredAppHost} (h : wishFor hosts hostname = some host) :
    host ∈ hosts ∧ host.hostname = hostname := by
  refine ⟨?_, by simpa using find?_some h⟩
  have hmem := mem_of_find?_eq_some h
  exact mem_reverse.mp hmem

end Lookup

/-! ## One host -/

section Hosts

variable {input : SetDesiredHostsInput} {current : List AppHostRecord} {time : Time}
  {host : DesiredAppHost} {s : System}

theorem insertRow_rows :
    Finishes (onOutcome (fun _ s' ↦ s'.appHosts.docs = s.appHosts.docs ++ [row]) fun _ _ ↦ True)
      (insertRow row) s := by
  apply finishes_bind.mpr
  apply finishes_settle.mpr
  apply finishes_await.mpr
  intro x
  have hserved := serveStore_insertOne_cases row x s.appHosts
  simp only [System.respond, serveBulk_one]
  cases hanswer : (serveStore (.insertOne row) x s.appHosts).1 with
  | error e => trivial
  | ok answer =>
    obtain hdocs | ⟨-, hrefused⟩ := hserved
    · exact hdocs
    · exact absurd hanswer (hrefused answer)

/-- An update of the row of one hostname. -/
theorem updateOne_rows {hostname : String} {update : AppHostRecord → AppHostRecord}
    (hupdate : ∀ row, (update row).hostname = row.hostname) :
    Finishes (onOutcome (fun _ s' ↦ ∀ other, s'.rowAt other =
      if hostname = other then (s.rowAt other).map update else s.rowAt other) fun _ _ ↦ True)
      (AppHosts.updateOne (fun row ↦ row.hostname == hostname) update) s := by
  apply finishes_await.mpr
  intro x
  cases hanswer : (System.respond (.appHosts (.one (.updateOne
      (fun row ↦ row.hostname == hostname) update))) x s).1 with
  | error e => trivial
  | ok result =>
    have hok : (serveBulk (.one (.updateOne (fun row ↦ row.hostname == hostname) update)) x
        s.appHosts).1.isOk := by
      change (System.respond (.appHosts (.one (.updateOne
        (fun row ↦ row.hostname == hostname) update))) x s).1.isOk
      rw [hanswer]
      rfl
    have hfilter : ∀ row : AppHostRecord, (row.hostname == hostname) →
        appHostIdentity.id row = hostname := fun _ h ↦ beq_iff_eq.mp h
    intro other
    change Collection.lookup appHostIdentity (serveBulk _ x s.appHosts).2 other = _
    rw [Collection.lookup_of_updateFirst (docs_of_updateOne_ok hok) hfilter hupdate]
    change Option.map _ (s.rowAt other) = _
    cases hrow : s.rowAt other with
    | none => simp
    | some row =>
      have hhostname : row.hostname = other := (rowAt_eq_some.mp hrow).2
      by_cases h : hostname = other
      · simp [hhostname, h]
      · simp [hhostname, h, Ne.symm h]

/-- The rows when some of the hosts are written. A host stands in no other row's way. -/
structure Written (input : SetDesiredHostsInput) (time : Time) (s₁ : System)
    (visited : List DesiredAppHost) (s : System) : Prop where
  rows : ∀ hostname, s.rowAt hostname =
    wished input time (wishFor visited hostname) (s₁.rowAt hostname)
  live : ∀ host ∈ visited, ∀ row, s₁.rowAt host.hostname = some row →
    isLiveOf input.workspaceId input.appId row = true

theorem wished_update :
    (wished input time wish (some row)).map (desiredAs input host time) =
      some (desiredAs input host time row) := by
  cases wish <;> rfl

theorem wished_eq_none {row : Option AppHostRecord} (h : wished input time wish row = none) :
    wish = none ∧ row = none := by
  cases wish with
  | none => exact ⟨rfl, h⟩
  | some host => cases row <;> cases h

theorem Written.snoc {s₁ s' : System} (h : Written input time s₁ visited s)
    (hrows : ∀ hostname, s'.rowAt hostname = if host.hostname = hostname then
      wished input time (some host) (s₁.rowAt hostname) else s.rowAt hostname)
    (hlive : ∀ row, s₁.rowAt host.hostname = some row →
      isLiveOf input.workspaceId input.appId row) :
    Written input time s₁ (visited ++ [host]) s' where
  rows hostname := by
    rw [hrows, wishFor_snoc]
    split
    · rfl
    · exact h.rows hostname
  live other hother := by
    obtain hvisited | hlast := mem_append.mp hother
    · exact h.live other hvisited
    · obtain rfl := mem_singleton.mp hlast
      exact hlive

/-- A host of a row that was read is updated; another one is inserted, where there is no row. -/
theorem writeHost_rows {s₁ : System} (h : Written input time s₁ visited s) :
    Finishes (onOutcome (fun _ s' ↦ Written input time s₁ (visited ++ [host]) s') fun _ _ ↦ True)
      (writeHost input (liveRows input.workspaceId input.appId s₁) time host) s := by
  unfold writeHost
  split
  next existing hfound =>
    obtain ⟨hstored, hlive⟩ := mem_filter.mp (mem_of_find?_eq_some hfound)
    have hhostname : existing.hostname = host.hostname := by simpa using find?_some hfound
    have hexisting : s₁.rowAt host.hostname = some existing :=
      rowAt_eq_some.mpr ⟨hstored, hhostname⟩
    have hupdate := @updateOne_rows s host.hostname (desiredAs input host time) fun _ ↦ rfl
    apply hupdate.bind
    · intro result s' hrows
      apply h.snoc
      · intro hostname
        rw [hrows]
        split
        next hsame =>
          rw [h.rows, ← hsame, hexisting]
          exact wished_update
        next => rfl
      · intro row hrow
        rw [hexisting] at hrow
        exact Option.some.inj hrow ▸ hlive
    · exact fun _ _ _ ↦ trivial
  next =>
    apply claimLabelOf_keeps.bind
    · intro _ s' hkept
      apply insertRow_rows.bind
      · intro _ s'' hdocs
        rw [hkept] at hdocs
        have hfree : s.rowAt host.hostname = none := Collection.lookup_of_unique hdocs
        rw [h.rows] at hfree
        have hnone := (wished_eq_none hfree).2
        apply h.snoc
        · intro hostname
          have hrow : s''.rowAt hostname = if host.hostname = hostname then
              some (desiredRow input host time) else s.rowAt hostname :=
            Collection.lookup_of_append hdocs
          rw [hrow]
          split
          next hsame =>
            rw [← hsame, hnone]
            rfl
          next => rfl
        · intro row hrow
          rw [hnone] at hrow
          cases hrow
      · exact fun _ _ _ ↦ trivial
    · exact fun _ _ _ ↦ trivial

end Hosts

/-! ## All hosts -/

section Replacement

variable {input : SetDesiredHostsInput} {time : Time} {s : System}

theorem mapWriteHost_rows {s₁ : System} (hrows : s.appHosts = s₁.appHosts) :
    Finishes (onOutcome (fun _ s' ↦ Written input time s₁ input.hosts s') fun _ _ ↦ True)
      (Program.mapEach (writeHost input (liveRows input.workspaceId input.appId s₁) time)
        input.hosts) s := by
  apply wp_mapEach (I := fun visited _ s' ↦ Written input time s₁ visited s')
  · exact fun visited host rest _ s' _ h ↦ writeHost_rows h
  · exact ⟨fun hostname ↦ rowAt_congr hrows, nofun⟩

/-- Rows that are deleted. -/
theorem deleteMany_rows {filter : AppHostRecord → Bool} :
    Finishes (onOutcome (fun _ s' ↦ ∀ hostname,
      s'.rowAt hostname = (s.rowAt hostname).filter fun row ↦ !filter row) fun _ _ ↦ True)
      (AppHosts.deleteMany filter) s := by
  apply finishes_await.mpr
  intro x
  cases hanswer : (System.respond (.appHosts (.deleteMany filter)) x s).1 with
  | error e => trivial
  | ok count =>
    have hok : (serveBulk (.deleteMany filter) x s.appHosts).1.isOk := by
      change (System.respond (.appHosts (.deleteMany filter)) x s).1.isOk
      rw [hanswer]
      rfl
    exact fun hostname ↦ Collection.lookup_of_remove (docs_of_deleteMany_ok hok)

theorem updateMany_rows {filter : AppHostRecord → Bool} {update : AppHostRecord → AppHostRecord}
    (hupdate : ∀ row, (update row).hostname = row.hostname) :
    Finishes (onOutcome (fun _ s' ↦ ∀ hostname, s'.rowAt hostname =
      (s.rowAt hostname).map fun row ↦ if filter row then update row else row) fun _ _ ↦ True)
      (AppHosts.updateMany filter update) s := by
  apply finishes_await.mpr
  intro x
  cases hanswer : (System.respond (.appHosts (.updateMany filter update)) x s).1 with
  | error e => trivial
  | ok result =>
    exact fun hostname ↦ Collection.lookup_of_updateAll (docs_of_updateMany_ok hanswer) hupdate

/-- The rows of the given hostnames are gone or being deleted. -/
theorem retire_rows {hostnames : List String} :
    Finishes (onOutcome (fun _ s' ↦
      (∀ hostname, hostname ∉ hostnames → s'.rowAt hostname = s.rowAt hostname) ∧
      ∀ hostname ∈ hostnames, (∀ row, s.rowAt hostname = some row → row.state ≠ .deleting) →
        s'.rowAt hostname = retired time (s.rowAt hostname)) fun _ _ ↦ True)
      (retire (fun row ↦ hostnames.contains row.hostname) time) s := by
  apply deleteMany_rows.bind
  · intro _ s' hdeleted
    have hupdate := @updateMany_rows s'
      (fun row ↦ hostnames.contains row.hostname && row.state != .deleting) (retiredAs time)
      fun _ ↦ rfl
    apply hupdate.bind
    · intro _ s'' hmarked
      constructor
      · intro hostname hother
        rw [hmarked, hdeleted]
        cases hrow : s.rowAt hostname with
        | none => rfl
        | some row =>
          have hhostname := (rowAt_eq_some.mp hrow).2
          have hspared : row.hostname ∉ hostnames := by rwa [hhostname]
          simp [Option.filter, hspared]
      · intro hostname hmem hlive
        rw [hmarked, hdeleted]
        cases hrow : s.rowAt hostname with
        | none => rfl
        | some row =>
          have hhostname := (rowAt_eq_some.mp hrow).2
          have hreached : row.hostname ∈ hostnames := by rwa [hhostname]
          have hstate := hlive row hrow
          cases hcf : row.cfHostnameId with
          | none => simp [retired, Option.filter, hreached, hcf]
          | some id => simp [retired, Option.filter, hreached, hcf, hstate]
    · exact fun _ _ _ ↦ trivial
  · exact fun _ _ _ ↦ trivial

theorem mem_removed {hostname : String} :
    hostname ∈ (((liveRows input.workspaceId input.appId s).filter fun row ↦
        !(input.hosts.map (·.hostname)).contains row.hostname).map (·.hostname)) ↔
      isRemoved input hostname (s.rowAt hostname) := by
  have hwish : (wishFor input.hosts hostname).isNone ↔
      hostname ∉ input.hosts.map (·.hostname) := by
    rw [Option.isNone_iff_eq_none, wishFor_eq_none_iff, List.mem_map]
    exact ⟨fun h ⟨host, hhost, hsame⟩ ↦ h host hhost hsame, fun h host hhost hsame ↦
      h ⟨host, hhost, hsame⟩⟩
  rw [isRemoved, Bool.and_eq_true, hwish, List.mem_map]
  constructor
  · rintro ⟨row, hrow, rfl⟩
    obtain ⟨hcurrent, hother⟩ := mem_filter.mp hrow
    obtain ⟨hstored, hlive⟩ := mem_filter.mp hcurrent
    have hat : s.rowAt row.hostname = some row := rowAt_eq_some.mpr ⟨hstored, rfl⟩
    rw [hat]
    exact ⟨by simpa using hother, hlive⟩
  · intro ⟨hother, hany⟩
    obtain ⟨row, hrow, hlive⟩ : ∃ row, s.rowAt hostname = some row ∧
        isLiveOf input.workspaceId input.appId row := by
      cases hrow : s.rowAt hostname with
      | none =>
        rw [hrow] at hany
        cases hany
      | some row =>
        rw [hrow] at hany
        exact ⟨row, rfl, hany⟩
    obtain ⟨hstored, hhostname⟩ := rowAt_eq_some.mp hrow
    refine ⟨row, mem_filter.mpr ⟨mem_filter.mpr ⟨hstored, hlive⟩, ?_⟩, hhostname⟩
    rw [hhostname]
    simpa using hother

/-- The hosts are written, and the rows of the app with other hostnames retired. -/
theorem writeHosts_rows {s₁ : System} (hsame : s.appHosts = s₁.appHosts) :
    Finishes (onOutcome (fun _ s' ↦
      (∀ hostname, s'.rowAt hostname = if isRemoved input hostname (s₁.rowAt hostname) then
        retired time (s₁.rowAt hostname)
        else wished input time (wishFor input.hosts hostname) (s₁.rowAt hostname)) ∧
      ∀ host ∈ input.hosts, ∀ row, s₁.rowAt host.hostname = some row →
        isLiveOf input.workspaceId input.appId row) fun _ _ ↦ True)
      (writeHosts input (liveRows input.workspaceId input.appId s₁) time) s := by
  apply (mapWriteHost_rows hsame).bind
  · intro written s' h
    apply finishes_bind.mpr
    apply wp_onlyIf.mpr
    split
    · apply finishes_bind.mpr
      apply retire_rows.imp
      intro r s'' hr
      cases r with
      | error e => trivial
      | ok count =>
        refine ⟨?_, h.live⟩
        intro hostname
        split
        next hremoved =>
          have hunwished : wishFor input.hosts hostname = none := by
            simp only [isRemoved, Bool.and_eq_true, Option.isNone_iff_eq_none] at hremoved
            exact hremoved.1
          have hrow : s'.rowAt hostname = s₁.rowAt hostname := by
            rw [h.rows, hunwished]
            rfl
          rw [← hrow]
          apply hr.2 hostname (mem_removed.mpr hremoved)
          intro row hat
          rw [hrow] at hat
          simp only [isRemoved, Bool.and_eq_true, hat, Option.any_some, isLiveOf] at hremoved
          simpa using hremoved.2.2
        next hkept =>
          rw [hr.1 hostname fun hmem ↦ hkept (mem_removed.mp hmem), h.rows]
    next hnone =>
      have hempty := not_not.mp hnone
      refine ⟨?_, h.live⟩
      intro hostname
      split
      next hremoved =>
        have hmem := mem_removed.mpr hremoved
        rw [hempty] at hmem
        exact by cases hmem
      next => exact h.rows hostname
  · exact fun _ _ _ ↦ trivial

theorem replaceHosts_rows :
    Finishes (onOutcome (fun _ s' ↦ ∃ time, Replaced input time s s') fun _ _ ↦ True)
      (replaceHosts input) s := by
  apply deleteMany_rows.bind
  · intro _ s₁ hdeleted
    apply finishes_bind.mpr
    apply finishes_await.mpr
    intro x
    simp only [System.respond, serveBulk_one, serveStore_find]
    split
    · apply finishes_bind.mpr
      apply finishes_now.mpr
      intro elapsed
      have hsame : (s₁.tick elapsed).appHosts = s₁.appHosts := rfl
      have hwrite := @writeHosts_rows input (s₁.world.clock + elapsed) (s₁.tick elapsed) s₁ hsame
      apply hwrite.imp
      intro r s' hr
      cases r with
      | error e => trivial
      | ok rows =>
        refine ⟨s₁.world.clock + elapsed, ?_, ?_⟩
        · intro hostname
          rw [hr.1, hdeleted]
          rfl
        · intro host hhost row hrow
          apply hr.2 host hhost row
          rw [hdeleted]
          exact hrow
    · trivial
  · exact fun _ _ _ ↦ trivial

/-- The lock of the workspace holds no row. -/
theorem locked_rows {α : Type} {workspaceId : String} {p : Action α} {P : System → System → Prop}
    (hcongr : ∀ s₁ s' s'', s₁.appHosts = s.appHosts → s''.appHosts = s'.appHosts → P s₁ s' →
      P s s'')
    (h : ∀ s₁, Finishes (onOutcome (fun _ s' ↦ P s₁ s') fun _ _ ↦ True) p s₁) :
    Finishes (onOutcome (fun _ s' ↦ P s s') fun _ _ ↦ True) (locked workspaceId p) s := by
  apply finishes_bind.mpr
  apply finishes_await.mpr
  intro x
  apply wp_finallyDo.mpr
  have hp := h (System.respond (.master (.acquire workspaceId)) x s).2
  apply hp.imp
  intro r s' hr
  apply finishes_await.mpr
  intro x'
  cases r with
  | error e => trivial
  | ok a => exact hcongr (System.respond (.master (.acquire workspaceId)) x s).2 s' _ rfl rfl hr

theorem announce_spares {deps : RegistryDeps} {cfWorker : Bool} :
    Finishes (onOutcome (fun _ s' ↦ s'.appHosts = s.appHosts) fun _ _ ↦ True)
      (announce deps cfWorker) s := by
  have hasks : AsyncProgram.Asks SparesRows (announce deps cfWorker) := by
    apply Asks.bind
    · apply Asks.onlyIf
      exact Asks.ask (σ := systemSignature) (c := .master (.service .markDirty)) trivial
    · exact fun _ ↦ Asks.onlyIf (Asks.ask (σ := systemSignature) (c := .notify) trivial)
  have hkept : Finishes (fun _ s' ↦ s'.appHosts = s.appHosts) (announce deps cfWorker) s :=
    finishes_of_asks hasks (fun _ x s hc hs ↦ (respond_appHosts hc x s).trans hs) rfl
  apply hkept.imp
  intro r s' hr
  cases r with
  | error e => trivial
  | ok _ => exact hr

theorem Replaced.congr {s₁ s' s'' : System} (hbefore : s₁.appHosts = s.appHosts)
    (hafter : s''.appHosts = s'.appHosts) (h : Replaced input time s₁ s') :
    Replaced input time s s'' where
  rows hostname := by
    rw [rowAt_congr hafter, h.rows, rowAt_congr hbefore]
  granted host hhost row hrow := by
    rw [← rowAt_congr hbefore] at hrow
    exact h.granted host hhost row hrow

/-- A request that returns has replaced the rows of the app. -/
theorem setDesiredHosts_rows (deps : RegistryDeps) :
    Finishes (onOutcome (fun _ s' ↦ ∃ time, Replaced input time s s') fun _ _ ↦ True)
      (setDesiredHosts deps input) s := by
  apply finishes_bind.mpr
  apply wp_throwIf.mpr
  split
  · trivial
  · have hlocked : Finishes (onOutcome (fun _ s' ↦ ∃ time, Replaced input time s s')
        fun _ _ ↦ True) (locked input.workspaceId (replaceHosts input)) s := by
      apply locked_rows (P := fun s s' ↦ ∃ time, Replaced input time s s')
      · intro s₁ s' s'' hbefore hafter h
        obtain ⟨time, h⟩ := h
        exact ⟨time, h.congr hbefore hafter⟩
      · exact fun s₁ ↦ replaceHosts_rows
    apply hlocked.bind
    · intro rows s' h
      apply announce_spares.bind
      · intro _ s'' hkept
        obtain ⟨time, h⟩ := h
        exact ⟨time, h.congr rfl hkept⟩
      · exact fun _ _ _ ↦ trivial
    · exact fun _ _ _ ↦ trivial

end Replacement

end PrivosCluster.Routing
