import PrivosCluster.Routing.HostReplacement
import PrivosCluster.Routing.WorkspaceSuspension

/-!
# The primary host of an app

Nothing in the collection keeps an app from having two primary hosts: the check of a request is on
its list of hosts alone, and the host that was primary before is demoted or retired by a write of
its own. Between the writes, and after a failure, both are primary, unless the request names the
old one before the new one.
-/

namespace PrivosCluster.Routing

open AsyncProgram DocumentStore List AppHostRegistry Function

/-- A primary row that is neither FAILED nor DELETING. -/
def IsLivePrimary (row : AppHostRecord) : Prop :=
  row.primary = true ∧ row.state ≠ .failed ∧ row.state ≠ .deleting

/-- Every live primary row of the workspace was one of its app before. -/
def NoNewPrimary (workspaceId : String) (s s' : System) : Prop :=
  ∀ row' ∈ s'.appHosts.docs, IsLivePrimary row' → row'.workspaceId = workspaceId →
    ∃ row ∈ s.appHosts.docs, IsLivePrimary row ∧ row.workspaceId = workspaceId ∧
      row.appId = row'.appId ∧ row.hostname = row'.hostname

/-- No app has two live primary rows. -/
def OnePrimary (s : System) : Prop :=
  ∀ row ∈ s.appHosts.docs, ∀ row' ∈ s.appHosts.docs, IsLivePrimary row → IsLivePrimary row' →
    row.workspaceId = row'.workspaceId → row.appId = row'.appId → row.hostname = row'.hostname

/-- The request names the live primary rows of its app no later than the host it makes primary. -/
def InOrder (input : AppHostRegistry.SetDesiredHostsInput) (s : System) : Prop :=
  ∀ earlier host later, input.hosts = earlier ++ host :: later → host.primary = true →
    ∀ row ∈ s.appHosts.docs, IsLivePrimary row → row.workspaceId = input.workspaceId →
      row.appId = input.appId → row.hostname ∈ (earlier ++ [host]).map (·.hostname)

/--
A replacement reads rows that are in order, and promotes no row of another app; a pass of the worker
does not bring back a primary row that is FAILED or DELETING.
-/
def KeepsOrder (s : System) : RegistryOperation → SystemCall → Prop
  | .setDesiredHosts input, .appHosts (.one (.find _)) => InOrder input s
  | .setDesiredHosts input, .appHosts (.one (.updateOne filter update)) =>
    ∀ row ∈ s.appHosts.docs, filter row = true → IsLivePrimary (update row) →
      row.workspaceId = input.workspaceId ∧ row.appId = input.appId
  | .runOnce, .appHosts (.one (.updateOne filter update)) =>
    ∀ row ∈ s.appHosts.docs, filter row = true → IsLivePrimary (update row) → IsLivePrimary row
  | _, _ => True

variable {workspaceId : String}

theorem NoNewPrimary.refl {s : System} : NoNewPrimary workspaceId s s :=
  fun row hrow hlive hown ↦ ⟨row, hrow, hlive, hown, rfl, rfl⟩

theorem NoNewPrimary.trans {s s' s'' : System} (h : NoNewPrimary workspaceId s s')
    (h' : NoNewPrimary workspaceId s' s'') : NoNewPrimary workspaceId s s'' := by
  intro row'' hrow'' hlive'' hown''
  obtain ⟨row', hrow', hlive', hown', happ', hhostname'⟩ := h' row'' hrow'' hlive'' hown''
  obtain ⟨row, hrow, hlive, hown, happ, hhostname⟩ := h row' hrow' hlive' hown'
  exact ⟨row, hrow, hlive, hown, happ.trans happ', hhostname.trans hhostname'⟩

theorem OnePrimary.stays {s s' : System} (h : OnePrimary s)
    (hnone : ∀ workspaceId, NoNewPrimary workspaceId s s') : OnePrimary s' := by
  intro row hrow row' hrow' hlive hlive' hworkspace happ
  obtain ⟨old, hold, holdLive, holdOwn, holdApp, hhostname⟩ := hnone _ row hrow hlive rfl
  obtain ⟨old', hold', holdLive', holdOwn', holdApp', hhostname'⟩ := hnone _ row' hrow' hlive' rfl
  have hsame := h old hold old' hold' holdLive holdLive' (by rw [holdOwn, holdOwn', hworkspace])
    (by rw [holdApp, holdApp', happ])
  exact hhostname.symm.trans (hsame.trans hhostname')

/-! ## What a call makes primary -/

/-- The row goes on from a live primary one of its app. -/
def Continued (s : System) (row' : AppHostRecord) : Prop :=
  ∃ row ∈ s.appHosts.docs, IsLivePrimary row ∧ row.workspaceId = row'.workspaceId ∧
    row.appId = row'.appId ∧ row.hostname = row'.hostname

theorem NoNewPrimary.of_continued {s s' : System}
    (h : ∀ row' ∈ s'.appHosts.docs, IsLivePrimary row' → row'.workspaceId = workspaceId →
      Continued s row') : NoNewPrimary workspaceId s s' := by
  intro row' hrow' hlive hown
  obtain ⟨row, hrow, hbefore, hworkspace, happ, hhostname⟩ := h row' hrow' hlive hown
  exact ⟨row, hrow, hbefore, hworkspace.trans hown, happ, hhostname⟩

variable {docs : List AppHostRecord} {op : BulkOperation AppHostRecord} {row : AppHostRecord}
  {c : SystemCall} {x : Choice} {held : Option String} {i : Fin 2}

section Calls

variable {operation : RegistryOperation} {s : System}

theorem not_live_of_retired (hop : RegistryOperation.Retires op) (hrow : op.Writes docs row) :
    ¬ IsLivePrimary row := by
  cases op with
  | one op => exact hop.elim
  | updateMany filter update =>
    obtain ⟨time, rfl⟩ := hop
    obtain ⟨before, -, -, rfl⟩ := hrow
    exact fun hlive ↦ hlive.2.2 rfl
  | deleteMany filter => exact hrow.elim

/-- A live primary row that another request than for a full set of hosts writes was one before. -/
theorem continued_of_written (hop : operation.Writes op)
    (hother : ∀ input, operation ≠ .setDesiredHosts input)
    (h : KeepsOrder s operation (.appHosts op)) (hrow : op.Writes s.appHosts.docs row)
    (hlive : IsLivePrimary row) : Continued s row := by
  cases op with
  | one op =>
    cases op with
    | findOne | find => exact hrow.elim
    | insertOne inserted =>
      obtain rfl : row = inserted := hrow
      cases operation with
      | reserve input =>
        have hprimary := hlive.1.symm.trans hop.2.2.1
        cases hprimary
      | setDesiredHosts input => exact absurd rfl (hother input)
      | _ => exact hop.elim
    | updateOne filter update =>
      obtain ⟨before, hbefore, hfilter, rfl⟩ := hrow
      cases operation with
      | setDesiredHosts input => exact absurd rfl (hother input)
      | runOnce =>
        have hbeforeLive := h before hbefore hfilter hlive
        obtain ⟨host, time, -, rfl | rfl | ⟨id, rfl⟩⟩ := hop <;>
          exact ⟨before, hbefore, hbeforeLive, rfl, rfl, rfl⟩
      | releaseSuspendedCfHostnames retentionDays =>
        obtain ⟨host, time, ⟨-, rfl⟩ | ⟨rfl, rfl⟩⟩ := hop
        · exact ⟨before, hbefore, hlive, rfl, rfl, rfl⟩
        · have hstate : before.state = .wsSuspended := by
            simp only [Bool.and_eq_true, beq_iff_eq] at hfilter
            exact hfilter.2
          have hbeforeLive : IsLivePrimary before := by
            refine ⟨hlive.1, ?_, ?_⟩ <;> rw [hstate] <;> decide
          exact ⟨before, hbefore, hbeforeLive, rfl, rfl, rfl⟩
      | reserve | removeAllAppHosts => exact hop.elim
      | setWorkspaceHostsSuspended workspaceId' suspended => cases suspended <;> exact hop.elim
    | upsertOne | insertMany | replaceOne =>
      cases operation with
      | setWorkspaceHostsSuspended workspaceId' suspended => cases suspended <;> exact hop.elim
      | _ => exact hop.elim
  | updateMany filter update =>
    cases operation with
    | setDesiredHosts input => exact absurd rfl (hother input)
    | removeAllAppHosts =>
      have hretires : RegistryOperation.Retires (.updateMany filter update) := hop
      exact absurd hlive (not_live_of_retired hretires hrow)
    | setWorkspaceHostsSuspended workspaceId' suspended =>
      obtain ⟨before, hbefore, hfilter, rfl⟩ := hrow
      cases suspended with
      | true =>
        obtain ⟨origin, horigin, time, rfl, rfl⟩ := hop
        have hstate : before.state = origin := by
          simp only [Bool.and_eq_true, beq_iff_eq] at hfilter
          exact hfilter.2
        have hbeforeLive : IsLivePrimary before := by
          refine ⟨hlive.1, ?_, ?_⟩ <;> rw [hstate] <;> rintro rfl <;> exact absurd horigin (by decide)
        exact ⟨before, hbefore, hbeforeLive, rfl, rfl, rfl⟩
      | false =>
        obtain ⟨⟨origin, rfl⟩, state, time, hupdate⟩ := hop
        have hstate : before.state = .wsSuspended ∨ before.state = .cfReleased := by
          simp only [isSuspendedOf, Bool.and_eq_true, Bool.or_eq_true,
            beq_iff_eq] at hfilter
          exact hfilter.1.2
        have hbeforeLive : before.primary → IsLivePrimary before := by
          intro hprimary
          refine ⟨hprimary, ?_, ?_⟩ <;> rcases hstate with h | h <;> rw [h] <;> decide
        rcases hupdate with rfl | rfl <;>
          exact ⟨before, hbefore, hbeforeLive hlive.1, rfl, rfl, rfl⟩
    | _ => exact hop.elim
  | deleteMany filter => exact hrow.elim

/-- One call of another request. -/
theorem continued_of_respond (hc : operation.Makes (.system c))
    (hother : ∀ input, operation ≠ .setDesiredHosts input) (h : KeepsOrder s operation c)
    (hrow : row ∈ (System.respond c x s).2.appHosts.docs) (hlive : IsLivePrimary row) :
    Continued s row := by
  cases c with
  | appHosts op =>
    obtain hbefore | hwritten := mem_serveBulk hrow
    · exact ⟨row, hbefore, hlive, rfl, rfl, rfl⟩
    · exact continued_of_written hc hother h hwritten hlive
  | _ => exact ⟨row, hrow, hlive, rfl, rfl, rfl⟩

end Calls

/-! ## Contracts under the lock of a workspace -/

/-- The lock that a thread holds after a call. -/
def heldAfter (held : Option String) : SystemCall → Option String
  | .master (.acquire workspaceId) => some workspaceId
  | .master (.release _) => none
  | _ => held

/-- A call of a thread makes no row primary but in the workspace that it has locked. -/
structure Guarded (held : Option String) (c : SystemCall) (s s' : System) : Prop where
  elsewhere : ∀ workspaceId, held ≠ some workspaceId → NoNewPrimary workspaceId s s'
  one : OnePrimary s → OnePrimary s'
  unlocks : ∀ workspaceId, c = .master (.release workspaceId) → held = some workspaceId

/-- While a thread holds the lock of a workspace, no other makes a row of it primary. -/
def amongRequests (operation : RegistryOperation) :
    Contract systemSignature JsError System Choice (Option String) where
  track held c _ := heldAfter held c
  assumes c _ s := KeepsOrder s operation c
  rely held s s' := ∀ workspaceId, held = some workspaceId → NoNewPrimary workspaceId s s'
  ensures held c x s := Guarded held c s (System.respond c x s).2
  rely_refl _ _ _ _ := .refl
  rely_trans _ _ _ _ h h' workspaceId hheld := (h workspaceId hheld).trans (h' workspaceId hheld)

/-- The law of the lock: it is taken only while nobody holds it. -/
def systemLockFree : SystemLaw
  | .master c, x, s => LockFree c x s.world
  | _, _, _ => True

/-- The locks that the threads hold are taken, each by one of them. -/
structure Exclusive {ι : Type} (notes : ι → Option String) (s : System) : Prop where
  taken : ∀ i workspaceId, notes i = some workspaceId → workspaceId ∈ s.world.locks
  apart : ∀ i j workspaceId, notes i = some workspaceId → notes j = some workspaceId → i = j
  one : OnePrimary s

theorem guarded_of_continued {s s' : System}
    (hunlocks : ∀ workspaceId, c = .master (.release workspaceId) → held = some workspaceId)
    (h : ∀ row' ∈ s'.appHosts.docs, IsLivePrimary row' → Continued s row') :
    Guarded held c s s' where
  elsewhere _ _ := .of_continued fun row' hrow' hlive _ ↦ h row' hrow' hlive
  one hone := hone.stays fun _ ↦ .of_continued fun row' hrow' hlive _ ↦ h row' hrow' hlive
  unlocks := hunlocks

section Team

variable {ι : Type} [DecidableEq ι] {tasks : ι → RegistryOperation}

theorem respond_locks (hacquire : ∀ w, c ≠ .master (.acquire w))
    (hrelease : ∀ w, c ≠ .master (.release w)) (x : Choice) (s : System) :
    (System.respond c x s).2.world.locks = s.world.locks := by
  cases c with
  | master c =>
    cases c with
    | acquire w => exact absurd rfl (hacquire w)
    | release w => exact absurd rfl (hrelease w)
    | _ => rfl
  | _ => rfl

theorem Exclusive.acquire {notes : ι → Option String} {s : System} {i : ι} {workspaceId : String}
    (h : Exclusive notes s) (hfree : workspaceId ∉ s.world.locks) (x : Choice) :
    Exclusive (Function.update notes i (some workspaceId))
      (System.respond (.master (.acquire workspaceId)) x s).2 where
  taken j other hother := by
    by_cases hj : j = i
    · rw [hj, update_self] at hother
      obtain rfl := Option.some.inj hother
      exact mem_cons_self
    · rw [update_of_ne hj] at hother
      exact mem_cons_of_mem _ (h.taken j other hother)
  apart j k other hother hother' := by
    have hnew : ∀ k, k ≠ i → notes k ≠ some workspaceId :=
      fun k _ hk ↦ hfree (h.taken k workspaceId hk)
    by_cases hj : j = i <;> by_cases hk : k = i
    · exact hj.trans hk.symm
    · rw [hj, update_self] at hother
      rw [update_of_ne hk] at hother'
      exact absurd (hother'.trans hother.symm) (hnew k hk)
    · rw [hk, update_self] at hother'
      rw [update_of_ne hj] at hother
      exact absurd (hother.trans hother'.symm) (hnew j hj)
    · rw [update_of_ne hj] at hother
      rw [update_of_ne hk] at hother'
      exact h.apart j k other hother hother'
  one := h.one

theorem Exclusive.release {notes : ι → Option String} {s : System} {i : ι} {workspaceId : String}
    (h : Exclusive notes s) (hheld : notes i = some workspaceId) (x : Choice) :
    Exclusive (Function.update notes i none)
      (System.respond (.master (.release workspaceId)) x s).2 where
  taken j other hother := by
    by_cases hj : j = i
    · rw [hj, update_self] at hother
      cases hother
    · rw [update_of_ne hj] at hother
      have hne : other ≠ workspaceId := by
        rintro rfl
        exact hj (h.apart j i other hother hheld)
      exact (mem_erase_of_ne hne).mpr (h.taken j other hother)
  apart j k other hother hother' := by
    by_cases hj : j = i
    · rw [hj, update_self] at hother
      cases hother
    · by_cases hk : k = i
      · rw [hk, update_self] at hother'
        cases hother'
      · rw [update_of_ne hj] at hother
        rw [update_of_ne hk] at hother'
        exact h.apart j k other hother hother'
  one := h.one

theorem Exclusive.respond {notes : ι → Option String} {s : System} {i : ι} (h : Exclusive notes s)
    (hx : systemLockFree c x s) (hensures : Guarded (notes i) c s (System.respond c x s).2) :
    Exclusive (Function.update notes i (heldAfter (notes i) c)) (System.respond c x s).2 := by
  have hother : (∀ w, c ≠ .master (.acquire w)) → (∀ w, c ≠ .master (.release w)) →
      heldAfter (notes i) c = notes i →
      Exclusive (Function.update notes i (heldAfter (notes i) c)) (System.respond c x s).2 := by
    intro hacquire hrelease hheld
    rw [hheld, update_eq_self]
    exact ⟨respond_locks hacquire hrelease x s ▸ h.taken, h.apart,
      hensures.one h.one⟩
  cases c with
  | master c =>
    cases c with
    | acquire workspaceId => exact h.acquire hx x
    | release workspaceId => exact h.release (hensures.unlocks workspaceId rfl) x
    | _ => exact hother nofun nofun rfl
  | _ => exact hother nofun nofun rfl

/-- Requests that keep the order fit together. -/
theorem requests_team : Team (system systemLockFree) (fun i ↦ amongRequests (tasks i))
    (fun _ _ _ _ ↦ True) Exclusive where
  stable _ _ _ _ _ _ _ := trivial
  fits notes s i c x hJ _ _ hensures j hj := by
    intro workspaceId hheld
    apply hensures.elsewhere
    intro hown
    exact hj (hJ.apart j i workspaceId hheld hown)
  keeps notes s i c x hJ hx _ hensures := hJ.respond hx hensures

end Team

/-! ## One replacement -/

section Replacement

variable {input : AppHostRegistry.SetDesiredHostsInput} {current : List AppHostRecord}
  {visited rest : List DesiredAppHost} {host : DesiredAppHost} {s s' : System}

/-- The rows that were read are in the order of the request. -/
def Expected (input : AppHostRegistry.SetDesiredHostsInput) (current : List AppHostRecord) : Prop :=
  ∀ earlier host later, input.hosts = earlier ++ host :: later → host.primary = true →
    ∀ old ∈ current, IsLivePrimary old → old.hostname ∈ (earlier ++ [host]).map (·.hostname)

/--
After the hosts visited so far, a live primary row of the app is the one of a host that is to be
primary, or one that was read and has not been visited.
-/
def Ranked (input : AppHostRegistry.SetDesiredHostsInput) (current : List AppHostRecord)
    (visited : List DesiredAppHost) (s : System) : Prop :=
  ∀ row ∈ s.appHosts.docs, IsLivePrimary row → row.workspaceId = input.workspaceId →
    row.appId = input.appId →
      (∃ host ∈ visited, host.primary = true ∧ host.hostname = row.hostname) ∨
        row.hostname ∉ visited.map (·.hostname) ∧
          ∃ old ∈ current, IsLivePrimary old ∧ old.hostname = row.hostname

theorem Ranked.stays (h : Ranked input current visited s)
    (hnone : NoNewPrimary input.workspaceId s s') : Ranked input current visited s' := by
  intro row' hrow' hlive hown happ
  obtain ⟨row, hrow, hbefore, hworkspace, happ', hhostname⟩ := hnone row' hrow' hlive hown
  rw [← hhostname]
  exact h row hrow hbefore hworkspace (happ'.trans happ)

/-- When its turn comes, no other row than that of the host to be promoted is primary. -/
theorem Ranked.only (h : Ranked input current visited s)
    (hsingle : ¬ 1 < (input.hosts.filter (·.primary)).length) (hexpected : Expected input current)
    (hhosts : input.hosts = visited ++ host :: rest) (hprimary : host.primary) :
    ∀ row ∈ s.appHosts.docs, IsLivePrimary row → row.workspaceId = input.workspaceId →
      row.appId = input.appId → row.hostname = host.hostname := by
  intro row hrow hlive hown happ
  rcases h row hrow hlive hown happ with ⟨other, hother, hotherPrimary, -⟩ |
    ⟨hunvisited, old, hold, holdLive, hhostname⟩
  · have hmem : other ∈ visited.filter (·.primary) := mem_filter.mpr ⟨hother, hotherPrimary⟩
    have hpos := length_pos_of_mem hmem
    rw [hhosts, filter_append, filter_cons_of_pos hprimary, length_append,
      length_cons] at hsingle
    omega
  · have hnamed := hexpected visited host rest hhosts hprimary old hold holdLive
    rw [hhostname, map_append, mem_append] at hnamed
    simpa using hnamed.resolve_left hunvisited

/-- What a write for a host leaves of the live primary rows. -/
def HostWrite (input : AppHostRegistry.SetDesiredHostsInput) (host : DesiredAppHost)
    (s s' : System) : Prop :=
  ∀ row ∈ s'.appHosts.docs, IsLivePrimary row → Continued s row ∨
    row.workspaceId = input.workspaceId ∧ row.appId = input.appId ∧ host.primary = true ∧
      row.hostname = host.hostname

theorem HostWrite.guarded (hwrite : HostWrite input host s s') (h : Ranked input current visited s)
    (hsingle : ¬ 1 < (input.hosts.filter (·.primary)).length) (hexpected : Expected input current)
    (hhosts : input.hosts = visited ++ host :: rest)
    (hc : ∀ workspaceId, c ≠ .master (.release workspaceId)) :
    Guarded (some input.workspaceId) c s s' where
  elsewhere workspaceId hother := by
    apply NoNewPrimary.of_continued
    intro row hrow hlive hown
    obtain hcontinued | ⟨hworkspace, -⟩ := hwrite row hrow hlive
    · exact hcontinued
    · exact absurd (congrArg some (hworkspace.symm.trans hown)) hother
  one hone := by
    -- of the app, only the row of the host to be promoted can be primary after the write
    have hpromoted : host.primary = true → ∀ row ∈ s'.appHosts.docs, IsLivePrimary row →
        row.workspaceId = input.workspaceId → row.appId = input.appId →
          row.hostname = host.hostname := by
      intro hprimary row hrow hlive hown happ
      obtain hcontinued | ⟨-, -, -, hhostname⟩ := hwrite row hrow hlive
      · obtain ⟨before, hbefore, hbeforeLive, hworkspace, happ', hhostname⟩ := hcontinued
        rw [← hhostname]
        exact h.only hsingle hexpected hhosts hprimary before hbefore hbeforeLive
          (hworkspace.trans hown) (happ'.trans happ)
      · exact hhostname
    intro row hrow row' hrow' hlive hlive' hworkspace happ
    obtain hcontinued | ⟨hown, hownApp, hprimary, hhostname⟩ := hwrite row hrow hlive
    · rcases hwrite row' hrow' hlive' with hcontinued' |
        ⟨hown, hownApp, hprimary, hhostname⟩
      · obtain ⟨old, hold, holdLive, holdWorkspace, holdApp, holdHostname⟩ := hcontinued
        obtain ⟨old', hold', holdLive', holdWorkspace', holdApp', holdHostname'⟩ := hcontinued'
        have hsame := hone old hold old' hold' holdLive holdLive'
          (holdWorkspace.trans (hworkspace.trans holdWorkspace'.symm))
          (holdApp.trans (happ.trans holdApp'.symm))
        exact holdHostname.symm.trans (hsame.trans holdHostname')
      · rw [hhostname]
        exact hpromoted hprimary row hrow hlive (hworkspace.trans hown) (happ.trans hownApp)
    · rw [hhostname]
      exact (hpromoted hprimary row' hrow' hlive' (hworkspace.symm.trans hown)
        (happ.symm.trans hownApp)).symm
  unlocks workspaceId hrelease := absurd hrelease (hc workspaceId)

/-- After a write that succeeds, the row of the host is primary only if that is desired. -/
theorem Ranked.next (h : Ranked input current visited s) (hwrite : HostWrite input host s s')
    (hdone : ∀ row ∈ s'.appHosts.docs, IsLivePrimary row → row.hostname = host.hostname →
      host.primary = true) : Ranked input current (visited ++ [host]) s' := by
  intro row hrow hlive hown happ
  by_cases hhostname : row.hostname = host.hostname
  · exact .inl ⟨host, by simp, hdone row hrow hlive hhostname, hhostname.symm⟩
  · have hcontinued : Continued s row := by
      obtain hcontinued | ⟨-, -, -, hsame⟩ := hwrite row hrow hlive
      · exact hcontinued
      · exact absurd hsame hhostname
    obtain ⟨before, hbefore, hbeforeLive, hworkspace, happ', hsame⟩ := hcontinued
    rw [← hsame] at hhostname ⊢
    rcases h before hbefore hbeforeLive (hworkspace.trans hown) (happ'.trans happ) with
      ⟨other, hother, hprimary, hother'⟩ | ⟨hunvisited, hread⟩
    · exact .inl ⟨other, mem_append_left _ hother, hprimary, hother'⟩
    · refine .inr ⟨?_, hread⟩
      rw [map_append, mem_append, not_or]
      exact ⟨hunvisited, by simpa using hhostname⟩

/-- A promotion of rows of the app. -/
theorem HostWrite.updateOne {time : Time}
    (h : KeepsOrder s (.setDesiredHosts input) (.appHosts (.one (.updateOne
      (fun row ↦ row.hostname == host.hostname) (desiredAs input host time))))) :
    HostWrite input host s (System.respond (.appHosts (.one (.updateOne
      (fun row ↦ row.hostname == host.hostname)
        (desiredAs input host time)))) x s).2 := by
  intro row hrow hlive
  obtain hbefore | ⟨before, hbefore, hfilter, rfl⟩ := mem_serveBulk hrow
  · exact .inl ⟨row, hbefore, hlive, rfl, rfl, rfl⟩
  · obtain ⟨hworkspace, happ⟩ := h before hbefore hfilter hlive
    exact .inr ⟨hworkspace, happ, hlive.1, beq_iff_eq.mp hfilter⟩

theorem primary_of_updateOne {time : Time} {result : UpdateResult}
    (h : (System.respond (.appHosts (.one (.updateOne (fun row ↦ row.hostname == host.hostname)
      (desiredAs input host time)))) x s).1 = .ok result) :
    ∀ row ∈ (System.respond (.appHosts (.one (.updateOne (fun row ↦ row.hostname == host.hostname)
        (desiredAs input host time)))) x s).2.appHosts.docs,
      IsLivePrimary row → row.hostname = host.hostname → host.primary = true := by
  intro row hrow hlive hhostname
  simp only [System.respond, serveBulk_one] at h hrow
  have hkeys : ∀ row : AppHostRecord, (row.hostname == host.hostname) = true →
      appHostKeys (desiredAs input host time row) = appHostKeys row := fun _ _ ↦ rfl
  obtain ⟨rows, hdocs, hserve⟩ := serveStore_updateOne (c := s.appHosts) (x := x) hkeys
  rw [hserve] at h hrow
  have hfault : x.fault = .none := by
    by_contra hfault
    rw [if_neg hfault] at h
    cases h
  have hids := s.appHosts.ids_nodup appHostIdentity
  have hfilter : ∀ row : AppHostRecord, (row.hostname == host.hostname) = true →
      appHostIdentity.id row = host.hostname := fun _ h ↦ beq_iff_eq.mp h
  simp only [hfault, reduceCtorEq, if_false] at hrow
  rw [hdocs, updateFirst_eq_map hids hfilter] at hrow
  obtain ⟨before, -, rfl⟩ := List.mem_map.mp hrow
  split at hlive
  · exact hlive.1
  next hother =>
    rw [if_neg hother] at hhostname
    simp [hhostname] at hother

theorem HostWrite.insertOne {time : Time} :
    HostWrite input host s (System.respond (.appHosts (.one (.insertOne
      (desiredRow input host time)))) x s).2 := by
  intro row hrow hlive
  obtain hbefore | hinserted := mem_serveBulk hrow
  · exact .inl ⟨row, hbefore, hlive, rfl, rfl, rfl⟩
  · obtain rfl : row = desiredRow input host time := hinserted
    exact .inr ⟨rfl, rfl, hlive.1, rfl⟩

theorem primary_of_insertOne {time : Time} {a : Unit}
    (h : (System.respond (.appHosts (.one (.insertOne
      (desiredRow input host time)))) x s).1 = .ok a) :
    ∀ row ∈ (System.respond (.appHosts (.one (.insertOne
        (desiredRow input host time)))) x s).2.appHosts.docs,
      IsLivePrimary row → row.hostname = host.hostname → host.primary = true := by
  intro row hrow hlive hhostname
  have hserved := serveStore_insertOne_cases (desiredRow input host time) x s.appHosts
  obtain hdocs | ⟨-, hrefused⟩ := hserved
  · have hadded : desiredRow input host time ∈ (serveStore (.insertOne
        (desiredRow input host time)) x s.appHosts).2.docs := by
      rw [hdocs]
      exact mem_append_right _ mem_cons_self
    obtain rfl := Collection.eq_of_mem_of_id appHostIdentity hrow hadded hhostname
    exact hlive.1
  · exact absurd h (hrefused a)

end Replacement

/-! ## Requests among others -/

section Among

variable {operation : RegistryOperation} {α : Type}

/-- The condition holds, and the thread holds this lock. -/
def Holding (held : Option String) (I : System → Prop) (note : Option String) (s : System) : Prop :=
  note = held ∧ I s

theorem heldAfter_of_makes (hc : operation.MakesOnSystem c) (held : Option String) :
    heldAfter held c = held := by
  cases c with
  | master c =>
    cases c with
    | acquire | release => exact hc.elim
    | _ => rfl
  | _ => rfl

theorem guarded_of_makes {s : System} (hc : operation.MakesOnSystem c)
    (hother : ∀ input, operation ≠ .setDesiredHosts input) (h : KeepsOrder s operation c)
    (x : Choice) : Guarded held c s (System.respond c x s).2 := by
  apply guarded_of_continued
  · rintro workspaceId rfl
    exact hc.elim
  · exact fun row hrow hlive ↦ continued_of_respond hc.makes hother h hrow hlive

/-- What an operation does among the requests. -/
abbrev Requesting {α : Type} (operation : RegistryOperation) :=
  Among (α := α) (system systemLockFree) (amongRequests operation)

/-- Calls that another request could make leave a stable condition on the locked workspace. -/
theorem among_quiet {I : System → Prop} {p : Action α} {s : System}
    (hp : AsyncProgram.Asks (RegistryOperation.removeAllAppHosts "" none).MakesOnSystem p)
    (hstable : ∀ s s', (∀ workspaceId, held = some workspaceId → NoNewPrimary workspaceId s s') →
      I s → I s')
    (hcalls : ∀ c x s, (RegistryOperation.removeAllAppHosts "" none).MakesOnSystem c → I s →
      I (System.respond c x s).2) (hs : I s) :
    Requesting operation (fun _ ↦ Holding held I) p held s := by
  apply Among.keeps (I := Holding held I) hp
  · rintro _ s s' hrely ⟨rfl, hI⟩
    exact ⟨rfl, hstable s s' hrely hI⟩
  · rintro _ c x s hc - - ⟨rfl, hI⟩
    refine ⟨guarded_of_makes hc nofun trivial x, ?_, hcalls c x s hc hI⟩
    exact heldAfter_of_makes hc _
  · exact ⟨rfl, hs⟩

/-- An action that keeps the lock it is given, around which the lock is taken and given back. -/
theorem among_locked {workspaceId : String} {p : Action α} {s : System}
    (hp : ∀ s, Requesting operation
      (fun _ ↦ Holding (some workspaceId) fun _ ↦ True) p (some workspaceId) s) :
    Requesting operation (fun _ ↦ Holding none fun _ ↦ True) (locked workspaceId p) none s := by
  have hsame : ∀ held c s s', (∀ w, c = .master (.release w) → held = some w) →
      s'.appHosts = s.appHosts → Guarded held c s s' := by
    intro held c s s' hunlocks hrows
    apply guarded_of_continued hunlocks
    intro row hrow hlive
    exact ⟨row, hrows ▸ hrow, hlive, rfl, rfl, rfl⟩
  apply Among.bind (R := onExit (fun _ ↦ Holding (some workspaceId) fun _ ↦ True) fun _ _ _ ↦ False)
  · exact fun s' _ x _ _ ↦ ⟨hsame _ _ _ _ nofun rfl, rfl, trivial⟩
  · rintro _ _ s ⟨rfl, -⟩
    apply Among.finallyDo (hp s)
    rintro r _ s ⟨rfl, -⟩
    intro s' _ x _ _
    refine ⟨hsame _ _ _ _ ?_ rfl, rfl, trivial⟩
    intro w hw
    cases hw
    rfl
  · exact fun _ _ _ h ↦ h.elim

section Replacements

variable {input : AppHostRegistry.SetDesiredHostsInput} {current : List AppHostRecord}
  {visited rest : List DesiredAppHost} {host : DesiredAppHost} {time : Time} {s : System}

/-- The thread holds the lock of the workspace, and the hosts visited are ranked. -/
abbrev Ranking (input : AppHostRegistry.SetDesiredHostsInput) (current : List AppHostRecord)
    (visited : List DesiredAppHost) : Option String → System → Prop :=
  Holding (some input.workspaceId) (Ranked input current visited)

/-- The thread still holds the lock of the workspace. -/
abbrev Locking (input : AppHostRegistry.SetDesiredHostsInput) : Option String → System → Prop :=
  Holding (some input.workspaceId) fun _ ↦ True

/-- One write for a host, between the reading of its answer and the next host. -/
theorem hostWrite_among
    (hc : ∀ workspaceId, c ≠ .master (.acquire workspaceId) ∧ c ≠ .master (.release workspaceId))
    (hwrite : ∀ x s, KeepsOrder s (.setDesiredHosts input) c →
      HostWrite input host s (System.respond c x s).2)
    (hdone : ∀ x s answer, (System.respond c x s).1 = .ok answer →
      ∀ row ∈ (System.respond c x s).2.appHosts.docs, IsLivePrimary row →
        row.hostname = host.hostname → host.primary = true)
    (hsingle : ¬ 1 < (input.hosts.filter (·.primary)).length) (hexpected : Expected input current)
    (hhosts : input.hosts = visited ++ host :: rest) (h : Ranked input current visited s) :
    Requesting (.setDesiredHosts input)
      (onExit (fun _ ↦ Ranking input current (visited ++ [host])) fun _ ↦ Locking input)
      (await c) (some input.workspaceId) s := by
  intro s' hrely x _ hassume
  have hranked := h.stays (hrely _ rfl)
  have hwritten := hwrite x s' hassume
  have hheld : heldAfter (some input.workspaceId) c = some input.workspaceId := by
    cases c with
    | master c =>
      cases c with
      | acquire workspaceId => exact absurd rfl (hc workspaceId).1
      | release workspaceId => exact absurd rfl (hc workspaceId).2
      | _ => rfl
    | _ => rfl
  refine ⟨hwritten.guarded hranked hsingle hexpected hhosts fun w ↦ (hc w).2, ?_⟩
  cases hanswer : ((system systemLockFree).respond c x s').1 with
  | ok answer => exact ⟨hheld, hranked.next hwritten (hdone x s' answer hanswer)⟩
  | error e => exact ⟨hheld, trivial⟩

theorem insertRow_among (hsingle : ¬ 1 < (input.hosts.filter (·.primary)).length)
    (hexpected : Expected input current) (hhosts : input.hosts = visited ++ host :: rest)
    (h : Ranked input current visited s) :
    Requesting (.setDesiredHosts input)
      (onExit (fun _ ↦ Ranking input current (visited ++ [host])) fun _ ↦ Locking input)
      (insertRow (desiredRow input host time))
      (some input.workspaceId) s := by
  have hinsert := hostWrite_among (c := .appHosts (.one (.insertOne
    (desiredRow input host time)))) (fun _ ↦ ⟨nofun, nofun⟩)
    (fun _ _ _ ↦ HostWrite.insertOne) (fun _ _ _ ↦ primary_of_insertOne) hsingle hexpected hhosts h
  apply Among.bind (R := onExit (fun r note s ↦ onExit (fun _ ↦ Ranking input current
    (visited ++ [host])) (fun _ ↦ Locking input) r note s) fun _ _ _ ↦ False) hinsert.settle
  · intro inserted note s hinserted
    cases inserted with
    | ok _ => exact hinserted
    | error e => exact hinserted
  · exact fun _ _ _ h ↦ h.elim

/-- One host of the list. -/
theorem writeHost_among (hsingle : ¬ 1 < (input.hosts.filter (·.primary)).length)
    (hexpected : Expected input current) (hhosts : input.hosts = visited ++ host :: rest)
    (h : Ranked input current visited s) :
    Requesting (.setDesiredHosts input)
      (onExit (fun _ ↦ Ranking input current (visited ++ [host])) fun _ ↦ Locking input)
      (writeHost input current time host) (some input.workspaceId) s := by
  unfold writeHost
  split
  · have hupdate := hostWrite_among (c := .appHosts (.one (.updateOne
      (fun row ↦ row.hostname == host.hostname) (desiredAs input host time))))
      (fun _ ↦ ⟨nofun, nofun⟩) (fun _ _ hassume ↦ HostWrite.updateOne hassume)
      (fun _ _ _ ↦ primary_of_updateOne) hsingle hexpected hhosts h
    apply Among.bind hupdate
    · exact fun _ _ _ hranking ↦ hranking
    · exact fun _ _ _ hlocking ↦ hlocking
  · apply Among.bind (R := fun _ ↦ Ranking input current visited)
    · apply among_quiet (claimLabelOf_asks trivial fun _ ↦ trivial)
      · exact fun s s' hrely hranked ↦ hranked.stays (hrely _ rfl)
      · intro c x s hc hranked
        apply hranked.stays
        have hguarded : Guarded none c s _ := guarded_of_makes hc nofun trivial x
        exact hguarded.elsewhere _ nofun
      · exact h
    · rintro _ _ s ⟨rfl, hranked⟩
      apply Among.bind (insertRow_among hsingle hexpected hhosts hranked)
      · exact fun _ _ _ hranking ↦ hranking
      · exact fun _ _ _ hlocking ↦ hlocking
    · exact fun _ _ _ hranking ↦ ⟨hranking.1, trivial⟩

/-- Calls that write no primary row keep the lock. -/
theorem locking_among {α : Type} {p : Action α}
    (hp : AsyncProgram.Asks (RegistryOperation.removeAllAppHosts "" none).MakesOnSystem p) :
    Requesting (.setDesiredHosts input) (fun _ ↦ Locking input) p (some input.workspaceId) s :=
  among_quiet hp (fun _ _ _ ↦ id) (fun _ _ _ _ ↦ id) trivial

theorem retires_asks {filter : AppHostRecord → Bool} :
    AsyncProgram.Asks (RegistryOperation.removeAllAppHosts "" none).MakesOnSystem
      (retire filter time) := by
  apply retire_asks
  intro op hop
  cases op with
  | one op => exact hop.elim
  | updateMany | deleteMany => exact hop

/-- The rows of the app are read in order. -/
theorem find_among : Requesting (.setDesiredHosts input)
      (onExit (fun current note s ↦ Expected input current ∧ Ranking input current [] note s)
        fun _ ↦ Locking input)
      (AppHosts.find (isLiveOf input.workspaceId input.appId)) (some input.workspaceId) s := by
  apply Among.ask
  intro s' _ x _ hassume
  have hinOrder : InOrder input s' := hassume
  have hread : (RegistryOperation.removeAllAppHosts "" none).MakesOnSystem
      (.appHosts (.one (.find (isLiveOf input.workspaceId input.appId)))) := trivial
  refine ⟨guarded_of_makes hread nofun trivial x, ?_⟩
  simp only [system, System.respond, serveBulk_one, serveStore_find]
  split
  · refine ⟨?_, rfl, ?_⟩
    · intro earlier host later hhosts hprimary old hold hlive
      obtain ⟨hstored, hof⟩ := mem_filter.mp hold
      simp only [isLiveOf, Bool.and_eq_true, beq_iff_eq] at hof
      exact hinOrder earlier host later hhosts hprimary old hstored hlive hof.1.1 hof.1.2
    · intro row hrow hlive hown happ
      refine .inr ⟨not_mem_nil, row, ?_, hlive, rfl⟩
      apply mem_filter.mpr
      refine ⟨hrow, ?_⟩
      simp [isLiveOf, hown, happ, hlive.2.2]
  · exact ⟨rfl, trivial⟩

theorem writeHosts_among (hsingle : ¬ 1 < (input.hosts.filter (·.primary)).length)
    (hexpected : Expected input current) (h : Ranked input current [] s) :
    Requesting (.setDesiredHosts input) (fun _ ↦ Locking input)
      (writeHosts input current time) (some input.workspaceId) s := by
  have hloop : Requesting (.setDesiredHosts input)
      (onExit (fun _ ↦ Ranking input current input.hosts) fun _ ↦ Locking input)
      (Program.mapEach (writeHost input current time) input.hosts)
      (some input.workspaceId) s := by
    apply Among.mapEach (I := Ranking input current)
    · rintro visited host rest _ s hhosts ⟨rfl, hranked⟩
      exact writeHost_among hsingle hexpected hhosts hranked
    · exact ⟨rfl, h⟩
  apply Among.bind hloop
  · rintro written _ s ⟨rfl, -⟩
    apply Among.bind (R := fun _ ↦ Locking input)
    · apply locking_among
      apply Asks.onlyIf
      exact retires_asks.bind fun _ ↦ Asks.pure
    · exact fun _ _ _ hlocking ↦ hlocking
    · exact fun _ _ _ hlocking ↦ hlocking
  · exact fun _ _ _ hlocking ↦ hlocking

theorem replaceHosts_among (hsingle : ¬ 1 < (input.hosts.filter (·.primary)).length) :
    Requesting (.setDesiredHosts input) (fun _ ↦ Locking input)
      (replaceHosts input) (some input.workspaceId) s := by
  have hdead : ∀ row : AppHostRecord, isDeadOf input.workspaceId input.appId row = true →
      row.cfHostnameId = none := by
    intro row hrow
    simp only [isDeadOf, Bool.and_eq_true, Option.isNone_iff_eq_none] at hrow
    exact hrow.2
  have hdelete : (RegistryOperation.removeAllAppHosts "" none).Writes
      (.deleteMany (isDeadOf input.workspaceId input.appId)) := hdead
  apply Among.bind (locking_among (asks_appHosts hdelete))
  · rintro _ _ s ⟨rfl, -⟩
    apply Among.bind find_among
    · rintro current _ s ⟨hexpected, rfl, hranked⟩
      apply Among.bind (R := fun _ ↦ Ranking input current [])
      · apply among_quiet asks_systemNow
        · exact fun s s' hrely hranked ↦ hranked.stays (hrely _ rfl)
        · intro c x s hc hranked
          apply hranked.stays
          have hguarded : Guarded none c s _ := guarded_of_makes hc (by simp) trivial x
          exact hguarded.elsewhere _ (by simp)
        · exact hranked
      · rintro time _ s ⟨rfl, hranked⟩
        exact writeHosts_among hsingle hexpected hranked
      · exact fun _ _ _ hranking ↦ ⟨hranking.1, trivial⟩
    · exact fun _ _ _ hlocking ↦ hlocking
  · exact fun _ _ _ hlocking ↦ hlocking

/-- A replacement of hosts among other requests. -/
theorem setDesiredHosts_among {deps : RegistryDeps} :
    Requesting (.setDesiredHosts input) (fun _ _ _ ↦ True)
      (AppHostRegistry.setDesiredHosts deps input) none s := by
  apply Among.bind (R := onExit (fun _ note _ ↦ note = none ∧
    ¬ 1 < (input.hosts.filter (·.primary)).length) fun _ _ _ ↦ True)
  · exact Among.throwIf (fun _ ↦ trivial) fun hsingle ↦ ⟨rfl, hsingle⟩
  · rintro _ _ s ⟨rfl, hsingle⟩
    apply Among.bind (among_locked fun s ↦ replaceHosts_among hsingle)
    · rintro rows _ s ⟨rfl, -⟩
      have hannounce : AsyncProgram.Asks (RegistryOperation.removeAllAppHosts "" none).MakesOnSystem
          (do
            announce deps true
            .pure rows : Action (List AppHostRecord)) :=
        announce_asks.bind fun _ ↦ Asks.pure
      apply Among.imp (among_quiet (I := fun _ ↦ True) hannounce (fun _ _ _ ↦ id)
        (fun _ _ _ _ ↦ id) trivial)
      exact fun _ _ _ _ ↦ trivial
    · exact fun _ _ _ _ ↦ trivial
  · exact fun _ _ _ _ ↦ trivial

end Replacements

/-- A request that is not for a full set of hosts makes no row primary. -/
theorem other_among {p : Action α} {s : System}
    (hother : ∀ input, operation ≠ .setDesiredHosts input)
    (hp : AsyncProgram.Asks operation.MakesOnSystem p) :
    Requesting operation (fun _ ↦ Holding held fun _ ↦ True) p held s := by
  apply Among.keeps (I := Holding held fun _ ↦ True) hp
  · exact fun _ _ _ _ h ↦ h
  · rintro _ c x s hc - hassume ⟨rfl, -⟩
    exact ⟨guarded_of_makes hc hother hassume x, heldAfter_of_makes hc _, trivial⟩
  · exact ⟨rfl, trivial⟩

/-- The law of the lock, at the edge. -/
def edgeLockFree : EdgeLaw
  | .system c, x, s => systemLockFree c x.system s.system
  | _, _, _ => True

theorem onEdge_among {p : Action α} {s : Edge} {Q : Except JsError α → Option String → System → Prop}
    (hp : Requesting operation Q p none s.system) :
    Among (edge edgeLockFree) (onEdgeContract (amongRequests operation)) (fun _ _ _ ↦ True)
      (do let _ ← onEdge p : EdgeAction Unit) none s := by
  have hedge : Among (edge edgeLockFree) _ _ (onEdge p) none s :=
    Among.onEdge (fun _ _ _ hlaw ↦ hlaw) hp
  apply Among.bind hedge
  · exact fun _ _ _ _ ↦ trivial
  · exact fun _ _ _ _ ↦ trivial

/-- A pass of the worker takes no lock. -/
theorem pass_among {p : EdgeAction Unit} {s : Edge} (hpass : operation.isPass = true)
    (hp : AsyncProgram.Asks operation.Makes p) :
    Among (edge edgeLockFree) (onEdgeContract (amongRequests operation)) (fun _ _ _ ↦ True) p none
      s := by
  have hother : ∀ input, operation ≠ .setDesiredHosts input := by
    rintro input rfl
    cases hpass
  apply Among.of_asks hp
  intro held c x s hc _ hassume
  cases c with
  | system c =>
    have hmakes : operation.MakesOnSystem c := by
      cases c with
      | master c =>
        cases c with
        | acquire | release =>
          have hlocks : operation.isPass = false := hc
          exact absurd (hpass.symm.trans hlocks) nofun
        | _ => trivial
      | _ => exact hc
    exact guarded_of_makes hmakes hother hassume x.system
  | cloudflare | sleep => trivial

theorem program_among (deps : EdgeDeps) (s : Edge) :
    Among (edge edgeLockFree) (onEdgeContract (amongRequests operation)) (fun _ _ _ ↦ True)
      (operation.program deps) none s := by
  cases operation with
  | reserve input =>
    obtain ⟨body, hbody, hasks⟩ := reserve_asks input
    have hreserve : Requesting (.reserve input)
        (fun _ ↦ Holding none fun _ ↦ True) (AppHostRegistry.reserve input) none s.system := by
      rw [hbody]
      exact among_locked fun s ↦ other_among nofun hasks
    exact onEdge_among hreserve
  | setDesiredHosts input => exact onEdge_among setDesiredHosts_among
  | removeAllAppHosts appId generationId =>
    exact onEdge_among (other_among nofun removeAllAppHosts_asks)
  | setWorkspaceHostsSuspended workspaceId suspended =>
    exact onEdge_among (other_among nofun setWorkspaceHostsSuspended_asks)
  | runOnce => exact pass_among rfl (RegistryOperation.program_asks deps .runOnce)
  | releaseSuspendedCfHostnames retentionDays =>
    exact pass_among rfl
      (RegistryOperation.program_asks deps (.releaseSuspendedCfHostnames retentionDays))

end Among

/-! ## Runs -/

section Runs

/-- No app has two primary rows in PENDING, ACTIVE, SUSPENDED or WS_SUSPENDED. -/
def AtMostOnePrimary (s : System) : Prop :=
  ∀ row ∈ s.appHosts.docs, ∀ row' ∈ s.appHosts.docs,
    row.primary = true → row.state ∈ AppHostState.wsSuspended :: AppHostRegistry.suspensibleStates →
    row'.primary = true →
      row'.state ∈ AppHostState.wsSuspended :: AppHostRegistry.suspensibleStates →
    row.workspaceId = row'.workspaceId → row.appId = row'.appId → row = row'

theorem OnePrimary.atMost {s : System} (h : OnePrimary s) : AtMostOnePrimary s := by
  have hlive : ∀ row : AppHostRecord, row.primary = true →
      row.state ∈ AppHostState.wsSuspended :: suspensibleStates →
        IsLivePrimary row := by
    intro row hprimary hstate
    refine ⟨hprimary, ?_, ?_⟩ <;> intro heq <;> rw [heq] at hstate <;>
      exact absurd hstate (by decide)
  intro row hrow row' hrow' hprimary hstate hprimary' hstate' hworkspace happ
  apply Collection.eq_of_mem_of_id appHostIdentity hrow hrow'
  exact h row hrow row' hrow' (hlive row hprimary hstate) (hlive row' hprimary' hstate') hworkspace
    happ

/-- In a run whose steps keep the order, no app comes to have two live primary rows. -/
theorem onePrimary_of_run {ι : Type} [DecidableEq ι] {deps : EdgeDeps} {tasks : ι → RegistryOperation}
    {s : Edge} {events : List (Event edgeSignature EdgeChoice ι)}
    {pool : Pool edgeSignature JsError Edge ι} (hstart : OnePrimary s.system)
    (run : Pool.Run (edge edgeLockFree) (RegistryOperation.pool deps tasks s) events pool)
    (horder : ∀ before e after pool₁, events = before ++ e :: after →
      Pool.Run (edge edgeLockFree) (RegistryOperation.pool deps tasks s) before pool₁ →
        ∀ c, e.call = .system c → KeepsOrder pool₁.state.system (tasks e.thread) c) :
    OnePrimary pool.state.system := by
  have hsystem : Team (system systemLockFree) (fun i ↦ amongRequests (tasks i)) (fun _ _ _ _ ↦ True)
      Exclusive := requests_team
  have hteam : Team (edge edgeLockFree) _ _ _ := Team.onEdge (fun _ _ _ hlaw ↦ hlaw) hsystem
  have hstands : (RegistryOperation.pool deps tasks s).Stands (edge edgeLockFree)
      (fun i ↦ onEdgeContract (amongRequests (tasks i))) (fun _ _ _ _ ↦ True)
      (fun notes s ↦ Exclusive notes s.system) fun _ ↦ none :=
    ⟨fun i ↦ program_among deps s, nofun, nofun, hstart⟩
  obtain ⟨notes, hends⟩ := run.together hteam (by
    intro before e after pool₁ _ hsplit hrun _
    cases hcall : e.call with
    | system c => exact horder before e after pool₁ hsplit hrun c hcall
    | cloudflare | sleep => trivial) hstands
  exact hends.joint.one

/--
A replacement that throws leaves the live rows of its app as they were exactly where it fails before
its first write; and in a run whose steps keep the order, no app has two primary rows.
-/
theorem replacement_all_or_nothing (registry : RegistryDeps) :
    (∀ (input : AppHostRegistry.SetDesiredHostsInput) (s : System),
      (∀ e s', Executes (system fun _ _ _ ↦ True) (AppHostRegistry.setDesiredHosts registry input) s
          (.threw e) s' →
        liveRows input.workspaceId input.appId s' = liveRows input.workspaceId input.appId s) ↔
        FailsFirst input s) ∧
      ∀ {ι : Type} [DecidableEq ι] (deps : EdgeDeps) (tasks : ι → RegistryOperation) (s : Edge)
        (events : List (Event edgeSignature EdgeChoice ι)) (pool : Pool edgeSignature JsError Edge ι),
        OnePrimary s.system →
        Pool.Run (edge edgeLockFree) (RegistryOperation.pool deps tasks s) events pool →
        (∀ before e after pool₁, events = before ++ e :: after →
          Pool.Run (edge edgeLockFree) (RegistryOperation.pool deps tasks s) before pool₁ →
            ∀ c, e.call = .system c → KeepsOrder pool₁.state.system (tasks e.thread) c) →
          AtMostOnePrimary pool.state.system := by
  constructor
  · exact replacement_spares_iff registry
  · intro ι _ deps tasks s events pool hstart run horder
    exact (onePrimary_of_run hstart run horder).atMost

namespace Sample

/-- `acme` names its primary host, and then a new one. -/
def demoting : AppHostRegistry.SetDesiredHostsInput where
  workspaceId := "acme"
  appId := "notes"
  listingId := "listing"
  hosts := [⟨"notes.acme.test", .custom, false, .active⟩, ⟨"new.acme.test", .custom, true, .active⟩]

/-- A new primary host, and a host that belongs to somebody else. -/
def refused : AppHostRegistry.SetDesiredHostsInput where
  workspaceId := "acme"
  appId := "notes"
  listingId := "listing"
  hosts := [⟨"new.acme.test", .custom, true, .active⟩, ⟨"shop.test", .custom, false, .active⟩]

/-- The host that belongs to somebody else comes first. -/
def refusedFirst : AppHostRegistry.SetDesiredHostsInput :=
  { refused with hosts := [⟨"shop.test", .custom, false, .active⟩] }

def shopRow : AppHostRecord :=
  { customRow with
    hostname := "shop.test", workspaceId := "shop", appId := "shop", cfHostnameId := none }

def twoApps : Edge :=
  { inService with system := { vacant with appHosts := ⟨[customRow, shopRow], by decide⟩ } }

instance (c : EdgeCall) (x : EdgeChoice) (s : Edge) : Decidable ((edge edgeLockFree).permits c x s) :=
  match c with
  | .system (.master (.acquire workspaceId)) =>
    inferInstanceAs (Decidable (workspaceId ∉ s.system.world.locks))
  | .system (.master (.apps _)) | .system (.master (.nodes _)) | .system (.master (.workspaces _))
  | .system (.master (.runtimeResourceInventories _)) | .system (.master (.lifecycleEvents _))
  | .system (.master (.request _)) | .system (.master (.service _)) | .system (.master (.release _))
  | .system (.appHosts _) | .system (.hostLabels _) | .system .randomBytes | .system .notify
  | .cloudflare _ | .sleep _ => .isTrue trivial

/-- The primary host of `acme` gives way to a new one, while the workspace is being suspended. -/
def promotionTasks (i : Fin 2) : RegistryOperation :=
  if i = 0 then .setDesiredHosts demoting else .setWorkspaceHostsSuspended "acme" true

def promoted : List (Event edgeSignature EdgeChoice (Fin 2)) ×
    Pool edgeSignature JsError Edge (Fin 2) :=
  Pool.play (edge edgeLockFree) (fun _ _ ↦ {}) [0, 0, 0, 1, 0, 1, 0, 0, 0, 1, 0, 0, 0, 1, 1]
    (RegistryOperation.pool edgeDeps promotionTasks inService)

def replaced : List (Event edgeSignature EdgeChoice (Fin 1)) ×
    Pool edgeSignature JsError Edge (Fin 1) :=
  Pool.play (edge edgeLockFree) (fun _ _ ↦ {}) (List.replicate 14 0)
    (RegistryOperation.pool edgeDeps (fun _ ↦ .setDesiredHosts refused) twoApps)

/-- The only rows of the run. -/
def IsHostOfNotes (row : AppHostRecord) : Prop :=
  row.workspaceId = "acme" ∧ row.appId = "notes" ∧
    row.hostname ∈ ["notes.acme.test", "new.acme.test"]

theorem isHostOfNotes_of_written (hop : (promotionTasks i).Writes op) (hrow : op.Writes docs row)
    (hdocs : ∀ row ∈ docs, IsHostOfNotes row) : IsHostOfNotes row := by
  have hhosts : ∀ host ∈ demoting.hosts, host.hostname ∈ ["notes.acme.test", "new.acme.test"] := by
    decide
  unfold promotionTasks at hop
  split at hop
  · cases op with
    | one op =>
      cases op with
      | findOne | find => exact hrow.elim
      | insertOne inserted =>
        obtain ⟨host, hhost, time, rfl⟩ := hop
        obtain rfl : row = _ := hrow
        exact ⟨rfl, rfl, hhosts host hhost⟩
      | updateOne filter update =>
        obtain ⟨before, hbefore, -, rfl⟩ := hrow
        obtain ⟨host, -, time, -, rfl⟩ := hop
        exact hdocs before hbefore
      | upsertOne | insertMany | replaceOne => exact hop.elim
    | updateMany filter update =>
      obtain ⟨before, hbefore, -, rfl⟩ := hrow
      obtain ⟨time, rfl⟩ := hop
      exact hdocs before hbefore
    | deleteMany filter => exact hrow.elim
  · cases op with
    | one op => cases op <;> first | exact hrow.elim | exact hop.elim
    | updateMany filter update =>
      obtain ⟨before, hbefore, -, rfl⟩ := hrow
      obtain ⟨origin, -, time, -, rfl⟩ := hop
      exact hdocs before hbefore
    | deleteMany filter => exact hrow.elim

theorem isHostOfNotes_respond {c : EdgeCall} {x : EdgeChoice} {s : Edge}
    (hc : (promotionTasks i).Makes c) (h : ∀ row ∈ s.system.appHosts.docs, IsHostOfNotes row) :
    ∀ row ∈ ((edge edgeLockFree).respond c x s).2.system.appHosts.docs, IsHostOfNotes row := by
  cases c with
  | system c =>
    cases c with
    | appHosts op =>
      intro row hrow
      obtain hbefore | hwritten := mem_serveBulk hrow
      · exact h row hbefore
      · exact isHostOfNotes_of_written hc hwritten h
    | _ => exact h
  | cloudflare request =>
    intro row hrow
    rw [edge, respond_cloudflare_system] at hrow
    exact h row hrow
  | sleep ms => exact h

/-- The calls of the run keep the order. -/
theorem keepsOrder_promotion {s : System} (hc : (promotionTasks i).Makes (.system c))
    (h : ∀ row ∈ s.appHosts.docs, IsHostOfNotes row) : KeepsOrder s (promotionTasks i) c := by
  unfold promotionTasks at hc ⊢
  split at hc
  · rw [if_pos ‹_›]
    cases c with
    | appHosts op =>
      cases op with
      | one op =>
        cases op with
        | find filter =>
          intro earlier host later hhosts hprimary row hrow _ _ _
          have hname := (h row hrow).2.2
          obtain _ | ⟨first, _ | ⟨second, earlier⟩⟩ := earlier
          · simp only [demoting, nil_append, List.cons.injEq] at hhosts
            rw [← hhosts.1] at hprimary
            cases hprimary
          · simp only [demoting, cons_append, nil_append, List.cons.injEq] at hhosts
            rw [← hhosts.1, ← hhosts.2.1]
            exact hname
          · simp [demoting] at hhosts
        | updateOne filter update =>
          intro row hrow _ _
          exact ⟨(h row hrow).1, (h row hrow).2.1⟩
        | _ => trivial
      | _ => trivial
    | _ => trivial
  · rw [if_neg ‹_›]
    trivial

end Sample

/-- A refused host, and a promotion beside a suspension. -/
theorem replacement_all_or_nothing_promotion :
    (∀ e s', Executes (system fun _ _ _ ↦ True)
        (AppHostRegistry.setDesiredHosts Sample.edgeDeps.registry Sample.refusedFirst)
        Sample.twoApps.system (.threw e) s' →
      liveRows "acme" "notes" s' = liveRows "acme" "notes" Sample.twoApps.system) ∧
      Sample.promoted.1.length = 14 ∧ AtMostOnePrimary Sample.promoted.2.state.system := by
  have hrefuses : RefusesHost Sample.refusedFirst ⟨"shop.test", .custom, false, .active⟩
      Sample.twoApps.system :=
    ⟨by decide, .inr ⟨Sample.shopRow, by decide, rfl, by decide⟩⟩
  have hfirst : FailsFirst Sample.refusedFirst Sample.twoApps.system := .refused rfl hrefuses
  refine ⟨((replacement_all_or_nothing _).1 _ _).mpr hfirst, by decide +kernel, ?_⟩
  have hrow : ∀ row ∈ Sample.inService.system.appHosts.docs, row = Sample.customRow :=
    fun _ hrow ↦ mem_singleton.mp hrow
  have hstart : OnePrimary Sample.inService.system := by
    intro row hmem row' hmem' _ _ _ _
    rw [hrow row hmem, hrow row' hmem']
  have hrun : Pool.Run (edge edgeLockFree)
      (RegistryOperation.pool Sample.edgeDeps Sample.promotionTasks Sample.inService)
      Sample.promoted.1 Sample.promoted.2 := Pool.run_play _ _ _
  have hasks : ∀ i, AsyncProgram.Asks (Sample.promotionTasks i).Makes
      ((RegistryOperation.pool Sample.edgeDeps Sample.promotionTasks Sample.inService).threads i) :=
    fun i ↦ RegistryOperation.program_asks _ _
  apply (replacement_all_or_nothing Sample.edgeDeps.registry).2 Sample.edgeDeps Sample.promotionTasks Sample.inService
    Sample.promoted.1 _ hstart hrun
  intro before e after pool hsplit run c hcall
  have hmakes := hrun.calls hasks e (by rw [hsplit]; simp)
  have hnotes : ∀ row ∈ pool.state.system.appHosts.docs, Sample.IsHostOfNotes row := by
    apply run.invariant hasks (I := fun s ↦ ∀ row ∈ s.system.appHosts.docs, Sample.IsHostOfNotes row)
      fun _ _ _ _ ↦ Sample.isHostOfNotes_respond
    intro row hmem
    rw [hrow row hmem]
    exact ⟨rfl, rfl, by decide⟩
  rw [hcall] at hmakes
  exact Sample.keepsOrder_promotion hmakes hnotes

/-- A refusal after the first write, which leaves two primary hosts. -/
theorem replaced_halfway :
    (∃ e s', Executes (system fun _ _ _ ↦ True)
        (AppHostRegistry.setDesiredHosts Sample.edgeDeps.registry Sample.refused)
        Sample.twoApps.system (.threw e) s' ∧
      liveRows "acme" "notes" s' ≠ liveRows "acme" "notes" Sample.twoApps.system) ∧
      AtMostOnePrimary Sample.twoApps.system ∧
        Pool.Run (edge edgeLockFree)
          (RegistryOperation.pool Sample.edgeDeps (fun _ ↦ .setDesiredHosts Sample.refused)
            Sample.twoApps) Sample.replaced.1 Sample.replaced.2 ∧
        ¬ AtMostOnePrimary Sample.replaced.2.state.system := by
  have hexecutes := (system fun _ _ _ ↦ True).executes_run (fun _ _ ↦ {}) (fun _ _ ↦ trivial)
    (AppHostRegistry.setDesiredHosts Sample.edgeDeps.registry Sample.refused) Sample.twoApps.system
  have hlive : liveRows "acme" "notes" ((system fun _ _ _ ↦ True).run (fun _ _ ↦ {})
      (AppHostRegistry.setDesiredHosts Sample.edgeDeps.registry Sample.refused)
      Sample.twoApps.system).2 ≠ liveRows "acme" "notes" Sample.twoApps.system := by decide +kernel
  have hthrew : ((system fun _ _ _ ↦ True).run (fun _ _ ↦ {})
      (AppHostRegistry.setDesiredHosts Sample.edgeDeps.registry Sample.refused)
      Sample.twoApps.system).1.toOption = none := by decide +kernel
  refine ⟨?_, ?_, Pool.run_play _ _ _, ?_⟩
  · cases hanswer : ((system fun _ _ _ ↦ True).run (fun _ _ ↦ {})
        (AppHostRegistry.setDesiredHosts Sample.edgeDeps.registry Sample.refused)
        Sample.twoApps.system).1 with
    | ok rows =>
      rw [hanswer] at hthrew
      cases hthrew
    | error e =>
      rw [hanswer] at hexecutes
      exact ⟨e, _, hexecutes, hlive⟩
  · unfold AtMostOnePrimary
    decide +kernel
  · unfold AtMostOnePrimary
    decide +kernel

end Runs

end PrivosCluster.Routing
