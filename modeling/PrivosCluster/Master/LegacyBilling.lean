import PrivosCluster.Master.Billing

/-!
# Apps from before billing events

An app that was installed before there were billing events has no INSTALLED event, and is billed
from its creation on by a path of its own. Any app-level event that its later life adds takes it
off that path and onto the other one, where without an INSTALLED nothing is ever billed.
-/

namespace PrivosCluster

open Accounting List

variable {accountingEnd start : Time} {rows : Rows}

namespace Usage

/-- The events by which an app is removed or its workspace revoked. -/
def endsLegacy (type : LifecycleEventType) : Bool :=
  type == .removed || type == .quarantined || type == .uninstalled

/-- The first removal or revocation of an app after its creation, or the removal on record. -/
def legacyEnd (events : List AppLifecycleEvent) (apps : List MasterApp) (app : MasterApp) :
    Option Time :=
  ((events.filter fun event ↦ event.appId == app.appId && endsLegacy event.type &&
    decide (app.createdAt < event.time)).map (·.time)).min?.or (removedAt? apps app.appId)

/-- What a legacy app is to be billed for. -/
def legacyInterval (events : List AppLifecycleEvent) (apps : List MasterApp) (app : MasterApp) :
    BillableInterval :=
  ⟨app.createdAt, legacyEnd events apps app⟩

section Legacy

variable {localeCompare : String → String → Bool} {workspaceId : String}
  {events : List AppLifecycleEvent} {apps : List MasterApp} {app : MasterApp}

theorem billableIntervals_of_not_installed {last : Time → Time → Option Time}
    {events : List AppLifecycleEvent} (h : ∀ event ∈ events, event.type ≠ .installed) :
    billableIntervals last none events = [] := by
  induction events with
  | nil => rfl
  | cons event events ih =>
    rw [billableIntervals, if_neg (h event (by simp))]
    exact ih fun e he ↦ h e (mem_cons_of_mem _ he)

/-- Without an INSTALLED the path of the billing events bills nothing. -/
theorem installedMs_of_not_installed {appId : String} {date asOf : Time}
    (hlegacy : ∀ event ∈ events, event.appId = appId → event.type ≠ .installed) :
    (dayBill date asOf events apps appId).installedMs = 0 := by
  rw [installedMs_dayBill, billableIntervals_of_not_installed]
  · rfl
  · intro event hevent
    rw [billingEvents, mem_sortByTime, mem_filter, Bool.and_eq_true, beq_iff_eq] at hevent
    exact hlegacy event hevent.1 hevent.2.2

theorem endsLegacy_of_not_billing {type : LifecycleEventType} (h : billingInterval type = false) :
    endsLegacy type = (type == .removed) := by
  revert h
  cases type <;> decide

/-- Without events of billing the removals by event are those the legacy path looks at. -/
theorem legacyEnd_of_not_billed
    (h : ∀ event ∈ events, event.appId = app.appId → billingInterval event.type = false) :
    legacyEnd events apps app = (removalTimes events app).min?.or (removedAt? apps app.appId) := by
  have hfilter : (events.filter fun event ↦ event.appId == app.appId && endsLegacy event.type &&
      decide (app.createdAt < event.time)) =
      events.filter fun event ↦ event.appId == app.appId && event.type == .removed &&
        decide (app.createdAt < event.time) := by
    refine filter_congr fun event hevent ↦ ?_
    by_cases hid : event.appId = app.appId
    · rw [endsLegacy_of_not_billing (h event hevent hid)]
    · have hother : (event.appId == app.appId) = false := by simpa using hid
      rw [hother]
      rfl
  rw [legacyEnd, removalTimes, hfilter]

/-- The length of what the legacy path bills a record for. -/
def legacyMs (start accountingEnd : Time) (events : List AppLifecycleEvent) (apps : List MasterApp)
    (app : MasterApp) : Int :=
  min accountingEnd (((removalTimes events app).min?.or (removedAt? apps app.appId)).getD
    accountingEnd) - max start app.createdAt

/-- The row of a legacy app, from its row before. -/
def legacyRow (start accountingEnd : Time) (events : List AppLifecycleEvent) (apps : List MasterApp)
    (app : MasterApp) (row : Option PerAppRow) : Option PerAppRow :=
  if 0 < legacyMs start accountingEnd events apps app then
    some (legacyOnRow app (legacyMs start accountingEnd events apps app)
      (row.getD (emptyRow app.appId)))
  else row

/-- The record of a legacy app without billing events is billed from its creation on. -/
theorem rowOf_billLegacy (hbilled : app.appId ∉ billedApps events)
    (hstarted : everStarted events app) :
    rowOf (billLegacy start accountingEnd events apps rows app) app.appId =
      legacyRow start accountingEnd events apps app (rowOf rows app.appId) := by
  have hcontains : (billedApps events).contains app.appId = false := by simpa using hbilled
  unfold billLegacy legacyRow legacyMs
  simp only [hcontains, hstarted, Bool.false_eq_true, if_false, Bool.not_true]
  split
  next hle => rw [if_neg (Int.not_lt.mpr (Int.sub_nonpos_of_le hle))]
  next hlt =>
    rw [if_pos (Int.sub_pos_of_lt (Int.not_le.mp hlt)), rowOf_withRow keepsId_legacyOnRow,
      if_pos rfl]

/-- The record is the only one with its id, so the other records leave its row alone. -/
theorem rowOf_billLegacies {records : List MasterApp} (hids : (records.map (·.appId)).Nodup)
    (happ : app ∈ records) (hbilled : app.appId ∉ billedApps events)
    (hstarted : everStarted events app) :
    rowOf (records.foldl (billLegacy start accountingEnd events apps) rows) app.appId =
      legacyRow start accountingEnd events apps app (rowOf rows app.appId) := by
  induction records generalizing rows with
  | nil => cases happ
  | cons record records ih =>
    simp only [map_cons, nodup_cons, List.mem_map, not_exists, not_and] at hids
    rw [foldl_cons]
    obtain rfl | happ := mem_cons.mp happ
    · refine foldl_keeps (P := fun rows' ↦ rowOf rows' app.appId = _)
        (rowOf_billLegacy hbilled hstarted) fun rows' other hother hrows' ↦ ?_
      rw [rowOf_billLegacy_of_ne (hids.1 other hother), hrows']
    · have hne : record.appId ≠ app.appId := fun h ↦ hids.1 app happ h.symm
      rw [ih hids.2 happ, rowOf_billLegacy_of_ne hne]

/-- The fraction of a legacy app that has no billing events. -/
theorem installedFraction_legacy (hids : (apps.map (·.appId)).Nodup) (happ : app ∈ apps)
    (hstarted : everStarted events app)
    (h : ∀ event ∈ events, event.appId = app.appId → billingInterval event.type = false)
    (date asOf : Time) :
    installedFraction (aggregateWorkspaceDay localeCompare workspaceId date asOf events apps)
        app.appId * dayMs =
      (legacyInterval events apps app).within (utcDay date) (accountingEndOf date asOf) := by
  have hbilled : app.appId ∉ billedApps events := by
    intro hmem
    obtain ⟨event, hevent, hid, htype⟩ := mem_billedApps.mp hmem
    rw [h event hevent hid] at htype
    cases htype
  have hbefore : rowOf ((billedApps events).foldl
      (billApp (utcDay date) (accountingEndOf date asOf) events apps)
      (computeRows (utcDay date) (accountingEndOf date asOf) events)) app.appId =
      rowOf (computeRows (utcDay date) (accountingEndOf date asOf) events) app.appId := by
    rw [rowOf_billApps nodup_billedApps, if_neg fun h ↦ hbilled h.1]
  have hwithin : (legacyInterval events apps app).within (utcDay date) (accountingEndOf date asOf) =
      max 0 (legacyMs (utcDay date) (accountingEndOf date asOf) events apps app) := by
    rw [legacyInterval, legacyEnd_of_not_billed h]
    rfl
  have hday : (dayMs : Rat) ≠ 0 := Int.cast_ne_zero.mpr (ne_of_gt dayMs_pos)
  rw [hwithin, installedFraction, rowOf_aggregateWorkspaceDay, dayRows,
    rowOf_billLegacies hids happ hbilled hstarted, hbefore, legacyRow]
  split
  next hms =>
    rw [max_eq_right (Int.le_of_lt hms)]
    exact div_mul_cancel₀ _ hday
  next hms =>
    rw [max_eq_left (Int.not_lt.mp hms), Int.cast_zero]
    cases hrow : rowOf (computeRows (utcDay date) (accountingEndOf date asOf) events) app.appId with
    | none => exact zero_mul _
    | some row =>
      rw [Option.elim_some, (allUnbilled_computeRows _ _ hrow).installedDayFraction, zero_mul]

end Legacy

/--
A day bills a legacy app for its time from creation to removal or revocation exactly when no event
of billing has been added to its log, or the day has no part of that time.
-/
theorem legacy_billed_iff (localeCompare : String → String → Bool) (workspaceId : String)
    (events : List AppLifecycleEvent) (apps : List MasterApp) {app : MasterApp}
    (hids : (apps.map (·.appId)).Nodup) (happ : app ∈ apps)
    (hstarted : ∃ event ∈ events, event.appId = app.appId ∧ event.type = .started)
    (hlegacy : ∀ event ∈ events, event.appId = app.appId → event.type ≠ .installed)
    (date asOf : Time) :
    installedFraction (aggregateWorkspaceDay localeCompare workspaceId date asOf events apps)
        app.appId * dayMs =
        (legacyInterval events apps app).within (utcDay date) (accountingEndOf date asOf) ↔
      (∀ event ∈ events, event.appId = app.appId → billingInterval event.type = false) ∨
        (legacyInterval events apps app).within (utcDay date) (accountingEndOf date asOf) = 0 := by
  have hever : everStarted events app := by
    obtain ⟨event, hevent, hid, htype⟩ := hstarted
    exact List.any_eq_true.mpr ⟨event, hevent, by simp [hid, htype]⟩
  by_cases hbilled : app.appId ∈ billedApps events
  · have hsome : ¬ ∀ event ∈ events, event.appId = app.appId → billingInterval event.type = false := by
      intro hnone
      obtain ⟨event, hevent, hid, htype⟩ := mem_billedApps.mp hbilled
      rw [hnone event hevent hid] at htype
      cases htype
    rw [installedFraction_day hbilled, installedMs_of_not_installed hlegacy, Int.cast_zero, zero_div,
      zero_mul, or_iff_right hsome, ← Int.cast_zero, Int.cast_inj]
    exact eq_comm
  · have hnone : ∀ event ∈ events, event.appId = app.appId → billingInterval event.type = false := by
      intro event hevent hid
      by_contra htype
      exact hbilled (mem_billedApps.mpr ⟨event, hevent, hid, by simpa using htype⟩)
    exact iff_of_true (installedFraction_legacy hids happ hever hnone date asOf) (.inl hnone)

namespace Sample

/-- A legacy app, created at midnight. -/
def legacyApp : MasterApp := PrivosCluster.Sample.app none .running none

end Sample

/-- A legacy app whose replica was removed at noon of its first day is billed half a day. -/
theorem legacy_billed_iff_removed :
    let events := [Sample.event .started 0, Sample.event .removed (12 * hourMs)]
    installedFraction (aggregateWorkspaceDay (fun _ _ ↦ true) "acme" 0 dayMs events
      [Sample.legacyApp]) "notes" * dayMs = 12 * hourMs := by
  intro events
  have hbilled := (legacy_billed_iff (fun _ _ ↦ true) "acme" events [Sample.legacyApp]
    (by decide) (mem_singleton_self Sample.legacyApp) ⟨_, mem_cons_self, rfl, rfl⟩
    (by decide) 0 dayMs).mpr (.inl (by decide))
  have hms : (legacyInterval events [Sample.legacyApp] Sample.legacyApp).within (utcDay 0)
      (accountingEndOf 0 dayMs) = 12 * hourMs := by decide +kernel
  rw [hms, Int.cast_mul] at hbilled
  exact hbilled

/-- Uninstalling a legacy app on its third day takes back what its first day was billed for. -/
theorem legacy_unbilled_by_uninstall :
    ¬ ∀ (localeCompare : String → String → Bool) (workspaceId : String)
      (events : List AppLifecycleEvent) (apps : List MasterApp) (app : MasterApp),
      (apps.map (·.appId)).Nodup → app ∈ apps →
      (∃ event ∈ events, event.appId = app.appId ∧ event.type = .started) →
      (∀ event ∈ events, event.appId = app.appId → event.type ≠ .installed) →
      ∀ date asOf, installedFraction
          (aggregateWorkspaceDay localeCompare workspaceId date asOf events apps) app.appId * dayMs =
        (legacyInterval events apps app).within (utcDay date) (accountingEndOf date asOf) := by
  intro h
  let events := [Sample.event .started 0, Sample.event .uninstalled (2 * dayMs)]
  have hstarted : ∃ event ∈ events, event.appId = Sample.legacyApp.appId ∧ event.type = .started :=
    ⟨_, mem_cons_self, rfl, rfl⟩
  have hlegacy : ∀ event ∈ events, event.appId = Sample.legacyApp.appId → event.type ≠ .installed := by
    decide
  have hclaimed := h (fun _ _ ↦ true) "acme" events [Sample.legacyApp] Sample.legacyApp (by decide)
    (by simp) hstarted hlegacy 0 dayMs
  rw [legacy_billed_iff _ _ _ _ (by decide) (mem_singleton_self Sample.legacyApp) hstarted hlegacy]
    at hclaimed
  have hnot : ¬ ((∀ event ∈ events, event.appId = Sample.legacyApp.appId →
        billingInterval event.type = false) ∨
      (legacyInterval events [Sample.legacyApp] Sample.legacyApp).within (utcDay 0)
        (accountingEndOf 0 dayMs) = 0) := by decide +kernel
  exact hnot hclaimed

end Usage

end PrivosCluster
