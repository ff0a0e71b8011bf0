import PrivosCluster.Master.UsageAggregator

/-!
# The row of one app

How the row of one app comes about in a day: every loop over apps touches a row only where it
comes to the app of that row, and sorting the rows does not change them.
-/

namespace PrivosCluster

open Accounting DocumentStore List

variable {f : PerAppRow → PerAppRow} {b : String} {app : MasterApp} {s : Integration}
  {asOf date : Time}

namespace Usage

theorem nodup_eraseDups {α : Type} [DecidableEq α] (items : List α) : items.eraseDups.Nodup := by
  induction hlength : items.length using Nat.strong_induction_on generalizing items with
  | _ n ih =>
    cases items with
    | nil => simp
    | cons a items =>
      have hshort : (items.filter fun b ↦ !b == a).length < n := by
        have hfilter := length_filter_le (fun b ↦ !b == a) items
        simp only [length_cons] at hlength
        omega
      rw [eraseDups_cons, nodup_cons]
      refine ⟨fun hmem ↦ ?_, ih _ hshort _ rfl⟩
      simpa using (mem_filter.mp (mem_eraseDups.mp hmem)).2

/-- A change of a row that leaves it the row of its app. -/
abbrev KeepsId (f : PerAppRow → PerAppRow) : Prop := ∀ row, (f row).appId = row.appId

variable {appId : String}

theorem rowOf_withRow (hf : KeepsId f) (rows : Rows) (b : String) :
    rowOf (withRow appId f rows) b =
      if appId = b then some (f ((rowOf rows appId).getD (emptyRow appId))) else rowOf rows b := by
  induction rows with
  | nil =>
    have hid : (f (emptyRow appId)).appId = appId := hf _
    by_cases hb : appId = b
    · simp [withRow, rowOf, hid]
    · simp [withRow, rowOf, hid, hb]
  | cons row rows ih =>
    simp only [rowOf] at ih
    by_cases hrow : row.appId = appId
    · have hid : (f row).appId = appId := (hf row).trans hrow
      by_cases hb : appId = b
      · subst hb
        simp [withRow, rowOf, hrow, hid]
      · simp [withRow, rowOf, hrow, hid, hb]
    · by_cases hb : appId = b
      · subst hb
        simp [withRow, rowOf, hrow, ih]
      · by_cases hrowb : row.appId = b
        · simp [withRow, rowOf, hrowb, hb, show ¬ b = appId from fun h ↦ hb h.symm]
        · simp [withRow, rowOf, hrow, hrowb, ih, hb]

variable {rows : Rows}

theorem mem_ids_withRow (hf : KeepsId f) (h : b ∈ (withRow appId f rows).map (·.appId)) :
    b = appId ∨ b ∈ rows.map (·.appId) := by
  induction rows with
  | nil =>
    simp only [withRow, map_cons, map_nil, mem_singleton, hf] at h
    exact .inl h
  | cons row rows ih =>
    unfold withRow at h
    split at h
    · simp only [map_cons, hf] at h
      exact .inr h
    · simp only [map_cons, mem_cons] at h ⊢
      obtain h | h := h
      · exact .inr (.inl h)
      · exact (ih h).imp_right .inr

/-- No two rows are of one app. -/
def Distinct (rows : Rows) : Prop := (rows.map (·.appId)).Nodup

theorem Distinct.withRow (hf : KeepsId f) (h : Distinct rows) :
    Distinct (withRow appId f rows) := by
  induction rows with
  | nil => simp [Distinct, Usage.withRow]
  | cons row rows ih =>
    simp only [Distinct, map_cons, nodup_cons] at h
    unfold Usage.withRow
    split
    · simp only [Distinct, map_cons, hf, nodup_cons]
      exact h
    next hrow =>
      simp only [Distinct, map_cons, nodup_cons]
      refine ⟨fun hmem ↦ ?_, ih h.2⟩
      obtain hid | hmem := mem_ids_withRow hf hmem
      · exact hrow hid
      · exact h.1 hmem

theorem rowOf_eq_some (h : Distinct rows) {row : PerAppRow} :
    rowOf rows appId = some row ↔ row ∈ rows ∧ row.appId = appId :=
  find?_id_eq_some h

theorem rowOf_insertionSort {r : PerAppRow → PerAppRow → Prop} [DecidableRel r]
    (h : Distinct rows) (appId : String) :
    rowOf (rows.insertionSort r) appId = rowOf rows appId := by
  have hperm := perm_insertionSort r rows
  have hsorted : Distinct (rows.insertionSort r) := (hperm.map _).nodup_iff.mpr h
  refine Option.ext fun row ↦ ?_
  rw [rowOf_eq_some hsorted, rowOf_eq_some h, hperm.mem_iff]

/-! ## The loops -/

theorem keepsId_addCompute {resources : ContainerResources} {durationMs : Int} :
    KeepsId (addCompute resources durationMs) := by
  intro row
  unfold addCompute
  split <;> rfl

theorem keepsId_onRow {bill : Bill} : KeepsId bill.onRow := fun _ ↦ rfl

theorem keepsId_legacyOnRow {ms : Int} : KeepsId (legacyOnRow app ms) :=
  fun _ ↦ rfl

/-- What every step of a loop keeps, the loop keeps. -/
theorem foldl_keeps {α β : Type} {P : β → Prop} {g : β → α → β} {items : List α} {b : β} (h : P b)
    (hg : ∀ b, ∀ a ∈ items, P b → P (g b a)) : P (items.foldl g b) := by
  induction items generalizing b with
  | nil => exact h
  | cons a items ih =>
    exact ih (hg b a (by simp) h) fun b a ha ↦ hg b a (mem_cons_of_mem _ ha)

variable {start accountingEnd : Time} {events : List AppLifecycleEvent} {apps : List MasterApp}

theorem distinct_integrate {key : String} {finish : Time} (h : Distinct s.rows) :
    Distinct (s.integrate key finish).rows := by
  unfold Integration.integrate
  split
  · exact h
  · exact h.withRow keepsId_addCompute

theorem distinct_integrateEvent {event : AppLifecycleEvent} (h : Distinct s.rows) :
    Distinct (integrateEvent start s event).rows := by
  unfold integrateEvent
  dsimp only
  split
  · exact distinct_integrate h
  · split
    · exact distinct_integrate h
    · exact h
  · exact distinct_integrate h

theorem distinct_computeRows : Distinct (computeRows start accountingEnd events) := by
  have hreplay (replicaEvents : List AppLifecycleEvent) :
      Distinct (replicaEvents.foldl (integrateEvent start) ⟨[], []⟩).rows :=
    foldl_keeps (P := fun s : Integration ↦ Distinct s.rows) nodup_nil
      fun _ _ _ h ↦ distinct_integrateEvent h
  exact foldl_keeps (hreplay _) fun _ _ _ h ↦ h.withRow keepsId_addCompute

theorem distinct_billApp (h : Distinct rows) :
    Distinct (billApp start accountingEnd events apps rows appId) := by
  unfold billApp
  dsimp only
  split
  · exact h
  · exact h.withRow keepsId_onRow

theorem distinct_billLegacy (h : Distinct rows) :
    Distinct (billLegacy start accountingEnd events apps rows app) := by
  unfold billLegacy
  dsimp only
  split
  · exact h
  · split
    · exact h
    · split
      · exact h
      · exact h.withRow keepsId_legacyOnRow

theorem distinct_dayRows : Distinct (dayRows date asOf events apps) :=
  foldl_keeps (foldl_keeps distinct_computeRows fun _ _ _ h ↦ distinct_billApp h)
    fun _ _ _ h ↦ distinct_billLegacy h

/-- The row of the result is the row the loops left. -/
theorem rowOf_aggregateWorkspaceDay {localeCompare : String → String → Bool}
    {workspaceId : String} :
    rowOf (aggregateWorkspaceDay localeCompare workspaceId date asOf events apps).perApp appId =
      rowOf (dayRows date asOf events apps) appId :=
  rowOf_insertionSort distinct_dayRows appId

/-- The bill of an app for the part of the day that is accounted for. -/
def appBill (start accountingEnd : Time) (events : List AppLifecycleEvent) (apps : List MasterApp)
    (appId : String) : Bill :=
  billOf start accountingEnd (closedSegments (segmentTail accountingEnd (removedAt? apps appId)) none
    (billingEvents events appId))

theorem rowOf_billApp {a : String} :
    rowOf (billApp start accountingEnd events apps rows a) b =
      if a = b ∧ 0 < (appBill start accountingEnd events apps a).installedMs then
        some ((appBill start accountingEnd events apps a).onRow
          ((rowOf rows a).getD (emptyRow a)))
      else rowOf rows b := by
  change rowOf (if (appBill start accountingEnd events apps a).installedMs ≤ 0 then rows
    else withRow a (appBill start accountingEnd events apps a).onRow rows) b = _
  by_cases hms : (appBill start accountingEnd events apps a).installedMs ≤ 0
  · rw [if_pos hms, if_neg (by omega)]
  · rw [if_neg hms, rowOf_withRow keepsId_onRow]
    by_cases hab : a = b
    · rw [if_pos hab, if_pos ⟨hab, by omega⟩]
    · rw [if_neg hab, if_neg fun h ↦ hab h.1]

theorem rowOf_billApps {ids : List String} (hids : ids.Nodup) :
    rowOf (ids.foldl (billApp start accountingEnd events apps) rows) b =
      if b ∈ ids ∧ 0 < (appBill start accountingEnd events apps b).installedMs then
        some ((appBill start accountingEnd events apps b).onRow
          ((rowOf rows b).getD (emptyRow b)))
      else rowOf rows b := by
  induction ids generalizing rows with
  | nil => simp
  | cons a ids ih =>
    rw [nodup_cons] at hids
    rw [foldl_cons, ih hids.2, rowOf_billApp]
    by_cases hab : a = b
    · subst hab
      simp [hids.1]
    · have hmem : b ∈ a :: ids ↔ b ∈ ids := by simp [show ¬ b = a from fun h ↦ hab h.symm]
      simp [hab, hmem]

theorem nodup_billedApps : (billedApps events).Nodup := nodup_eraseDups _

theorem mem_billedApps :
    appId ∈ billedApps events ↔
      ∃ event ∈ events, event.appId = appId ∧ billingInterval event.type := by
  rw [billedApps, mem_eraseDups, List.mem_map]
  constructor
  · rintro ⟨event, hevent, rfl⟩
    rw [mem_filter] at hevent
    exact ⟨event, hevent.1, rfl, hevent.2⟩
  · rintro ⟨event, hmem, hid, htype⟩
    exact ⟨event, mem_filter.mpr ⟨hmem, htype⟩, hid⟩

/-- The legacy loop changes the row of the app of the record only. -/
theorem rowOf_billLegacy_of_ne (h : app.appId ≠ b) :
    rowOf (billLegacy start accountingEnd events apps rows app) b = rowOf rows b := by
  unfold billLegacy
  dsimp only
  split
  · rfl
  · split
    · rfl
    · split
      · rfl
      · rw [rowOf_withRow keepsId_legacyOnRow, if_neg h]

/-- An app with billing events is billed by them alone. -/
theorem rowOf_dayRows_of_billed (h : appId ∈ billedApps events) :
    rowOf (dayRows date asOf events apps) appId =
      if 0 < (appBill (utcDay date) (accountingEndOf date asOf) events apps appId).installedMs then
        some ((appBill (utcDay date) (accountingEndOf date asOf) events apps appId).onRow
          ((rowOf (computeRows (utcDay date) (accountingEndOf date asOf) events) appId).getD
            (emptyRow appId)))
      else rowOf (computeRows (utcDay date) (accountingEndOf date asOf) events) appId := by
  let start := utcDay date
  let accountingEnd := accountingEndOf date asOf
  have hbilled : rowOf ((billedApps events).foldl (billApp start accountingEnd events apps)
      (computeRows start accountingEnd events)) appId = _ := rowOf_billApps nodup_billedApps
  rw [if_congr (and_iff_right h) rfl rfl] at hbilled
  rw [← hbilled]
  refine foldl_keeps (P := fun rows ↦ rowOf rows appId = _) rfl fun rows app _ hrows ↦ ?_
  rw [← hrows]
  by_cases hid : app.appId = appId
  · have hcontains : (billedApps events).contains app.appId := by simpa [hid] using h
    rw [billLegacy, if_pos hcontains]
  · exact rowOf_billLegacy_of_ne hid

end Usage

end PrivosCluster
