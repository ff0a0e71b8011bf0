import PrivosCluster.Master.Revocation
import PrivosCluster.Master.UsageRows
import Mathlib.Algebra.BigOperators.Ring.Finset
import Mathlib.Algebra.Order.BigOperators.Group.List
import Mathlib.Tactic.FieldSimp

/-!
# What a day bills

An app is billable from an INSTALLED event to the next event that closes the interval. The rows
of consecutive days together bill each such interval once, however it is cut into segments and
days, and a row depends only on what happened before the end of its day.
-/

namespace PrivosCluster

open Accounting List Option

variable {removedAt : Option Time} {tail : OpenInterval → Time} {row : PerAppRow} {finish : Time}
  {later : List AppLifecycleEvent}

variable {α : Type} {g : Bill → α} {v : Segment → α} {hi lo mid : Time}

namespace Usage

/-! ## Billable intervals -/

/-- A stretch of time in which an app is billable; without an end when nothing ended it. -/
structure BillableInterval where
  since : Time
  endAt : Option Time

/-- The part of the interval inside a window. -/
def BillableInterval.within (lo hi : Time) (interval : BillableInterval) : Int :=
  overlap lo hi interval.since (interval.endAt.getD hi)

def billedWithin (lo hi : Time) (intervals : List BillableInterval) : Int :=
  (intervals.map (·.within lo hi)).sum

def closesInterval (type : LifecycleEventType) : Bool := type == .uninstalled || type == .quarantined

/--
The billable intervals, from billing events in order of time. An open interval is known by its
start and the time of its last change; `last` says when an interval ends that no event closes.
-/
def billableIntervals (last : Time → Time → Option Time) :
    Option (Time × Time) → List AppLifecycleEvent → List BillableInterval
  | none, [] => []
  | some (since, changed), [] => [⟨since, last since changed⟩]
  | none, event :: rest =>
    if event.type = .installed then billableIntervals last (some (event.time, event.time)) rest
    else billableIntervals last none rest
  | some (since, changed), event :: rest =>
    if closesInterval event.type then ⟨since, some event.time⟩ :: billableIntervals last none rest
    else billableIntervals last
      (some (since, if rebasesInterval event.type then event.time else changed)) rest

/-- An interval that no event closes ends at the removal of the app, if there is one. -/
def endsAtRemoval (removedAt : Option Time) (_since _changed : Time) : Option Time := removedAt

/-- An interval that no event closes ends at the removal of the app or its last change after it. -/
def endsAfterChange (removedAt : Option Time) (_since changed : Time) : Option Time :=
  removedAt.map (max changed)

/-! ## Segments and intervals -/

section Segments

variable {start accountingEnd : Time}

/-- The part of a segment that a day bills. -/
def Segment.billedMs (start accountingEnd : Time) (segment : Segment) : Int :=
  overlap start accountingEnd segment.since segment.endAt

theorem installedMs_addSegment (bill : Bill) (segment : Segment) :
    (addSegment start accountingEnd bill segment).installedMs =
      bill.installedMs + segment.billedMs start accountingEnd := by
  unfold addSegment Segment.billedMs overlap
  have h : (max 0 (min accountingEnd segment.endAt - max start segment.since) : Int) =
      if min accountingEnd segment.endAt ≤ max start segment.since then 0
      else min accountingEnd segment.endAt - max start segment.since := by
    split
    next hle => exact max_eq_left (Int.sub_nonpos_of_le hle)
    next hlt => exact max_eq_right (Int.sub_nonneg_of_le (Int.le_of_lt (Int.not_le.mp hlt)))
  rw [h]
  dsimp only
  split
  · exact (Int.add_zero _).symm
  · rfl

theorem installedMs_foldl (segments : List Segment) (bill : Bill) :
    (segments.foldl (addSegment start accountingEnd) bill).installedMs =
      bill.installedMs + (segments.map (·.billedMs start accountingEnd)).sum := by
  induction segments generalizing bill with
  | nil => simp
  | cons segment segments ih =>
    rw [foldl_cons, ih, installedMs_addSegment, map_cons, sum_cons, Int.add_assoc]

theorem installedMs_billOf (segments : List Segment) :
    (billOf start accountingEnd segments).installedMs =
      (segments.map (·.billedMs start accountingEnd)).sum := by
  rw [billOf, installedMs_foldl]
  exact Int.zero_add _

theorem billing_cases {type : LifecycleEventType} (h : billingInterval type) :
    type = .installed ∨
      type ≠ .installed ∧ rebasesInterval type ∧ closesInterval type = false ∨
      type ≠ .installed ∧ rebasesInterval type = false ∧ closesInterval type := by
  revert h
  cases type <;> decide

variable {events : List AppLifecycleEvent}

/-- The segments of an interval measure together what the interval does. -/
theorem billedMs_closedSegments (hbilling : ∀ event ∈ events, billingInterval event.type)
    (hsorted : events.Pairwise (NotAfter (·.time))) :
    (∀ current since, since ≤ current.since → (∀ event ∈ events, current.since ≤ event.time) →
      overlap start accountingEnd since current.since +
          ((closedSegments (segmentTail accountingEnd removedAt) (some current) events).map
            (·.billedMs start accountingEnd)).sum =
        billedWithin start accountingEnd
          (billableIntervals (endsAfterChange removedAt) (some (since, current.since)) events)) ∧
    ((closedSegments (segmentTail accountingEnd removedAt) none events).map
        (·.billedMs start accountingEnd)).sum =
      billedWithin start accountingEnd
        (billableIntervals (endsAfterChange removedAt) none events) := by
  induction events with
  | nil =>
    refine ⟨fun current since hsince _ ↦ ?_, rfl⟩
    simp only [closedSegments, billableIntervals, billedWithin, map_cons, map_nil,
      sum_cons, sum_nil, add_zero, Segment.billedMs, BillableInterval.within]
    cases removedAt with
    | none => exact overlap_add_rest hsince start accountingEnd
    | some removedAt =>
      simp only [segmentTail, endsAfterChange, Option.map_some, Option.getD_some, overlap_min_hi]
      exact overlap_add_piece hsince (Int.le_max_left _ _) start accountingEnd
  | cons event events ih =>
    rw [pairwise_cons] at hsorted
    obtain ⟨hlate, hrest⟩ := hsorted
    obtain ⟨ihopen, ihnone⟩ := ih (fun e he ↦ hbilling e (mem_cons_of_mem _ he)) hrest
    refine ⟨fun current since hsince htimes ↦ ?_, ?_⟩
    · have htime : current.since ≤ event.time := htimes event (by simp)
      rcases billing_cases (hbilling event (by simp)) with
        htype | ⟨htype, hrebases, hcloses⟩ | ⟨htype, hrebases, hcloses⟩
      · -- a repeated INSTALLED leaves the interval alone
        have hkeep := ihopen current since hsince fun e he ↦ htimes e (mem_cons_of_mem _ he)
        simpa [closedSegments, billableIntervals, htype, closesInterval, rebasesInterval] using hkeep
      · have hchange := ihopen (rebased event current) since (Int.le_trans hsince htime) hlate
        simp only [closedSegments, billableIntervals, if_neg htype, hrebases, hcloses, if_true,
          Bool.false_eq_true, if_false, map_cons, sum_cons]
        rw [rebased_since] at hchange
        rw [← hchange, ← Int.add_assoc]
        congr 1
        exact overlap_add_piece hsince htime start accountingEnd
      · simp only [closedSegments, billableIntervals, if_neg htype, hrebases, hcloses, if_true,
          Bool.false_eq_true, if_false, map_cons, sum_cons]
        rw [← Int.add_assoc]
        congr 1
        exact overlap_add_piece hsince htime start accountingEnd
    · unfold closedSegments billableIntervals
      split
      · have hopen := ihopen (opened event) event.time (Int.le_refl _) hlate
        rw [opened_since, overlap_of_empty (Int.le_refl _), Int.zero_add] at hopen
        exact hopen
      · exact ihnone

/-- Segments do not overlap, so together they are no longer than the part of the day they lie in. -/
theorem sum_billedMs_le (htail : ∀ current, tail current ≤ accountingEnd)
    (hsorted : events.Pairwise (NotAfter (·.time))) :
    (∀ current, (∀ event ∈ events, current.since ≤ event.time) →
      ((closedSegments tail (some current) events).map (·.billedMs start accountingEnd)).sum ≤
        overlap start accountingEnd current.since accountingEnd) ∧
    ∀ time, (∀ event ∈ events, time ≤ event.time) →
      ((closedSegments tail none events).map (·.billedMs start accountingEnd)).sum ≤
        overlap start accountingEnd time accountingEnd := by
  induction events with
  | nil =>
    refine ⟨fun current _ ↦ ?_, fun time _ ↦ overlap_nonneg _ _ _ _⟩
    simp only [closedSegments, map_cons, map_nil, sum_cons, sum_nil, add_zero]
    exact overlap_mono_right (htail current) start accountingEnd current.since
  | cons event events ih =>
    rw [pairwise_cons] at hsorted
    obtain ⟨hlate, hrest⟩ := hsorted
    obtain ⟨ihopen, ihnone⟩ := ih hrest
    refine ⟨fun current htimes ↦ ?_, fun time htimes ↦ ?_⟩
    · have htime : current.since ≤ event.time := htimes event (by simp)
      have hcut : overlap start accountingEnd current.since event.time +
          overlap start accountingEnd event.time accountingEnd =
          overlap start accountingEnd current.since accountingEnd := overlap_add_rest htime _ _
      unfold closedSegments
      split
      · exact ihopen current fun e he ↦ htimes e (mem_cons_of_mem _ he)
      · split
        · have hnext := ihopen (rebased event current) hlate
          exact hcut ▸ Int.add_le_add_left hnext _
        · have hnext := ihnone event.time hlate
          exact hcut ▸ Int.add_le_add_left hnext _
    · have htime : time ≤ event.time := htimes event (by simp)
      unfold closedSegments
      split
      · exact Int.le_trans (ihopen (opened event) hlate)
          (overlap_mono_left htime start accountingEnd accountingEnd)
      · exact ihnone time fun e he ↦ htimes e (mem_cons_of_mem _ he)

/-- The segment has a part inside the day. -/
def Segment.Overlaps (start accountingEnd : Time) (segment : Segment) : Prop :=
  max start segment.since < min accountingEnd segment.endAt

instance (segment : Segment) : Decidable (segment.Overlaps start accountingEnd) :=
  inferInstanceAs (Decidable (max start segment.since < min accountingEnd segment.endAt))

/-- Each total of the bill is the maximum of a running total and the overlapping segments. -/
theorem foldl_addSegment_max [LinearOrder α]
    (hg : ∀ bill segment, segment.Overlaps start accountingEnd →
      g (addSegment start accountingEnd bill segment) = max (g bill) (v segment))
    (segments : List Segment) (bill : Bill) :
    g (segments.foldl (addSegment start accountingEnd) bill) =
      ((segments.filter (·.Overlaps start accountingEnd)).map v).foldl max (g bill) := by
  induction segments generalizing bill with
  | nil => rfl
  | cons segment segments ih =>
    rw [foldl_cons, ih]
    by_cases hoverlaps : segment.Overlaps start accountingEnd
    · rw [hg bill segment hoverlaps, filter_cons_of_pos (by simpa using hoverlaps),
        map_cons, foldl_cons]
    · have hskip : addSegment start accountingEnd bill segment = bill :=
        if_pos (Int.not_lt.mp hoverlaps)
      rw [hskip, filter_cons_of_neg (by simpa using hoverlaps)]

/-- The total is the greatest of zero and the values of the overlapping segments. -/
theorem isGreatest_billOf [LinearOrder α]
    (hg : ∀ bill segment, segment.Overlaps start accountingEnd →
      g (addSegment start accountingEnd bill segment) = max (g bill) (v segment))
    (segments : List Segment) :
    IsGreatest (insert (g {})
        (v '' {segment | segment ∈ segments ∧ segment.Overlaps start accountingEnd}))
      (g (billOf start accountingEnd segments)) := by
  have hset : v '' {segment | segment ∈ segments ∧ segment.Overlaps start accountingEnd} =
      {a | a ∈ (segments.filter (·.Overlaps start accountingEnd)).map v} := by
    ext a
    simp [Set.mem_image]
  rw [hset, billOf, foldl_addSegment_max hg]
  exact isGreatest_foldl_max _ _

theorem addSegment_of_overlaps {bill : Bill} {segment : Segment}
    (h : segment.Overlaps start accountingEnd) :
    addSegment start accountingEnd bill segment =
      { installedMs := bill.installedMs +
          (min accountingEnd segment.endAt - max start segment.since)
        maxMemoryMb := max bill.maxMemoryMb segment.resources.memoryMb
        maxCpus := max bill.maxCpus segment.resources.cpus
        maxTmpSizeMb := some (max (bill.maxTmpSizeMb.getD 0) segment.resources.tmpSizeMb)
        maxReplicaCount := max bill.maxReplicaCount segment.replicaCount
        storageGbDay := bill.storageGbDay + (segment.storageBytes.getD 0 : Rat) / gib *
          (((min accountingEnd segment.endAt - max start segment.since : Int) : Rat) / dayMs) } :=
  if_neg (Int.not_le.mpr h)

/-! ## What comes after the day -/

/-- Segments that begin after the day are not billed. -/
theorem foldl_addSegment_late (hlate : ∀ event ∈ events, accountingEnd ≤ event.time)
    (htail : ∀ current, tail current = accountingEnd) :
    (∀ current bill, (closedSegments tail (some current) events).foldl
        (addSegment start accountingEnd) bill =
      addSegment start accountingEnd bill ⟨current, accountingEnd⟩) ∧
    ∀ bill, (closedSegments tail none events).foldl (addSegment start accountingEnd) bill = bill := by
  induction events with
  | nil =>
    simp [closedSegments, htail]
  | cons event events ih =>
    obtain ⟨ihopen, ihnone⟩ := ih fun e he ↦ hlate e (mem_cons_of_mem _ he)
    have htime : accountingEnd ≤ event.time := hlate event (by simp)
    -- a segment that goes on past the day counts as if it ended with it
    have hcut (current : OpenInterval) (bill : Bill) :
        addSegment start accountingEnd bill ⟨current, event.time⟩ =
          addSegment start accountingEnd bill ⟨current, accountingEnd⟩ := by
      unfold addSegment
      simp only [min_eq_left htime, min_self]
    have hskip (bill : Bill) (next : OpenInterval) (hnext : next.since = event.time) :
        addSegment start accountingEnd bill ⟨next, accountingEnd⟩ = bill := by
      refine if_pos ?_
      rw [min_self, hnext]
      exact le_max_of_le_right htime
    refine ⟨fun current bill ↦ ?_, fun bill ↦ ?_⟩
    · unfold closedSegments
      split
      · exact ihopen current bill
      · split
        · rw [foldl_cons, hcut, ihopen, hskip _ _ (rebased_since event current)]
        · rw [foldl_cons, hcut, ihnone]
    · unfold closedSegments
      split
      · rw [ihopen, hskip _ _ (opened_since event)]
      · exact ihnone bill

/-- The bill of a day depends on the events before its end only. -/
theorem foldl_addSegment_filter (hsorted : events.Pairwise (NotAfter (·.time))) :
    ∀ current bill, (closedSegments (fun _ ↦ accountingEnd) current events).foldl
        (addSegment start accountingEnd) bill =
      (closedSegments (fun _ ↦ accountingEnd) current
        (events.filter fun event ↦ event.time < accountingEnd)).foldl
        (addSegment start accountingEnd) bill := by
  induction events with
  | nil => exact fun _ _ ↦ rfl
  | cons event events ih =>
    rw [pairwise_cons] at hsorted
    obtain ⟨hafter, hrest⟩ := hsorted
    intro current bill
    by_cases htime : event.time < accountingEnd
    · rw [filter_cons_of_pos (by simpa using htime)]
      cases current with
      | none =>
        simp only [closedSegments]
        split <;> exact ih hrest _ _
      | some current =>
        simp only [closedSegments]
        split
        · exact ih hrest _ _
        · split <;> exact ih hrest _ _
    · have hlate : ∀ e ∈ event :: events, accountingEnd ≤ e.time := by
        intro e he
        obtain rfl | he := mem_cons.mp he
        · exact Int.not_lt.mp htime
        · exact Int.le_trans (Int.not_lt.mp htime) (hafter e he)
      have hnone : (event :: events).filter (fun event ↦ event.time < accountingEnd) = [] :=
        filter_eq_nil_iff.mpr fun e he ↦ by simpa using hlate e he
      obtain ⟨hopen, hclosed⟩ := foldl_addSegment_late hlate fun _ ↦ rfl
      rw [hnone]
      cases current with
      | none =>
        rw [hclosed]
        rfl
      | some current =>
        rw [hopen]
        rfl

end Segments

/-! ## The day of an app -/

section Day

variable {localeCompare : String → String → Bool} {workspaceId appId : String}
  {events : List AppLifecycleEvent} {apps : List MasterApp}

theorem dayMs_pos : 0 < dayMs := by decide

variable {asOf date : Time}

theorem accountingEndOf_complete (h : utcDay date + dayMs ≤ asOf) :
    accountingEndOf date asOf = utcDay date + dayMs :=
  min_eq_left (le_max_of_le_right h)

theorem accountingEndOf_le (date asOf : Time) : accountingEndOf date asOf ≤ utcDay date + dayMs :=
  min_le_left _ _

theorem le_accountingEndOf (date asOf : Time) : utcDay date ≤ accountingEndOf date asOf :=
  le_min (Int.le_add_of_nonneg_right (Int.le_of_lt dayMs_pos)) (le_max_left _ _)

theorem utcDay_add_days (date : Time) (n : Nat) : utcDay (date + n * dayMs) = utcDay date + n * dayMs := by
  unfold utcDay
  rw [Int.add_mul_emod_self_right]
  exact add_sub_right_comm _ _ _

/-- The row has hours of compute at most. -/
structure Unbilled (row : PerAppRow) : Prop where
  resources : row.resources = ⟨0, 0, none⟩
  replicaCount : row.replicaCount = 0
  installedDayFraction : row.installedDayFraction = 0

def AllUnbilled (rows : Rows) : Prop := ∀ appId row, rowOf rows appId = some row → Unbilled row

theorem unbilled_emptyRow : Unbilled (emptyRow appId) := ⟨rfl, rfl, rfl⟩

theorem unbilled_addCompute {resources : ContainerResources} {durationMs : Int} (h : Unbilled row) :
    Unbilled (addCompute resources durationMs row) := by
  unfold addCompute
  split
  · exact h
  · exact ⟨h.resources, h.replicaCount, h.installedDayFraction⟩

theorem allUnbilled_integrateInterval {interval : RunningInterval} {rows : Rows}
    (h : AllUnbilled rows) : AllUnbilled (integrateInterval interval finish rows) := by
  intro appId row hrow
  rw [integrateInterval, rowOf_withRow keepsId_addCompute] at hrow
  split at hrow
  · rw [← some.inj hrow]
    refine unbilled_addCompute ?_
    cases hold : rowOf rows interval.appId with
    | none => exact unbilled_emptyRow
    | some old => exact h _ _ hold
  · exact h _ _ hrow

theorem allUnbilled_integrate {s : Integration} {key : String} (h : AllUnbilled s.rows) :
    AllUnbilled (s.integrate key finish).rows := by
  unfold Integration.integrate
  split
  · exact h
  · exact allUnbilled_integrateInterval h

theorem allUnbilled_computeRows {start accountingEnd : Time} :
    AllUnbilled (computeRows start accountingEnd events) := by
  have hevent (s : Integration) (event : AppLifecycleEvent) (h : AllUnbilled s.rows) :
      AllUnbilled (integrateEvent start s event).rows := by
    unfold integrateEvent
    dsimp only
    split
    · exact allUnbilled_integrate h
    · split
      · exact allUnbilled_integrate h
      · exact h
    · exact allUnbilled_integrate h
  have hreplay (replicaEvents : List AppLifecycleEvent) :
      AllUnbilled (replicaEvents.foldl (integrateEvent start) ⟨[], []⟩).rows :=
    foldl_keeps (P := fun s : Integration ↦ AllUnbilled s.rows) (fun _ _ h ↦ nomatch h)
      fun s event _ h ↦ hevent s event h
  exact foldl_keeps (hreplay _) fun _ _ _ h ↦ allUnbilled_integrateInterval h

/-- The segments of an app as a day sees them. -/
def daySegments (date asOf : Time) (events : List AppLifecycleEvent) (apps : List MasterApp)
    (appId : String) : List Segment :=
  closedSegments (segmentTail (accountingEndOf date asOf) (removedAt? apps appId)) none
    (billingEvents events appId)

def dayBill (date asOf : Time) (events : List AppLifecycleEvent) (apps : List MasterApp)
    (appId : String) : Bill :=
  appBill (utcDay date) (accountingEndOf date asOf) events apps appId

theorem billingEvents_billing {event : AppLifecycleEvent} (h : event ∈ billingEvents events appId) :
    billingInterval event.type = true := by
  rw [billingEvents, mem_sortByTime, mem_filter, Bool.and_eq_true] at h
  exact h.2.1

theorem pairwise_billingEvents : (billingEvents events appId).Pairwise (NotAfter (·.time)) :=
  pairwise_sortByTime _ _

theorem segmentTail_le {accountingEnd : Time} (current : OpenInterval) :
    segmentTail accountingEnd removedAt current ≤ accountingEnd := by
  unfold segmentTail
  split
  · exact Int.le_refl _
  · exact min_le_left _ _

/-- The bill measures the billable intervals inside the accounted part of the day. -/
theorem installedMs_dayBill :
    (dayBill date asOf events apps appId).installedMs =
      billedWithin (utcDay date) (accountingEndOf date asOf)
        (billableIntervals (endsAfterChange (removedAt? apps appId)) none
          (billingEvents events appId)) := by
  rw [dayBill, appBill, installedMs_billOf]
  exact (billedMs_closedSegments (fun _ h ↦ billingEvents_billing h) pairwise_billingEvents).2

theorem installedMs_dayBill_nonneg : 0 ≤ (dayBill date asOf events apps appId).installedMs := by
  rw [dayBill, appBill, installedMs_billOf]
  refine sum_nonneg fun ms hms ↦ ?_
  obtain ⟨segment, -, rfl⟩ := List.mem_map.mp hms
  exact overlap_nonneg _ _ _ _

theorem installedMs_dayBill_le : (dayBill date asOf events apps appId).installedMs ≤ dayMs := by
  have hday : accountingEndOf date asOf - utcDay date ≤ dayMs :=
    Int.sub_left_le_of_le_add (accountingEndOf_le date asOf)
  rw [dayBill, appBill, installedMs_billOf]
  cases hevents : billingEvents events appId with
  | nil => exact Int.le_of_lt dayMs_pos
  | cons event rest =>
    have hsorted : (event :: rest).Pairwise (NotAfter (·.time)) := hevents ▸ pairwise_billingEvents
    have hfirst : ∀ e ∈ event :: rest, event.time ≤ e.time := by
      intro e he
      obtain rfl | he := mem_cons.mp he
      · exact Int.le_refl _
      · exact (pairwise_cons.mp hsorted).1 e he
    have hsum : ((closedSegments (segmentTail (accountingEndOf date asOf) (removedAt? apps appId))
        none (event :: rest)).map (·.billedMs (utcDay date) (accountingEndOf date asOf))).sum ≤
        overlap (utcDay date) (accountingEndOf date asOf) event.time (accountingEndOf date asOf) :=
      (sum_billedMs_le segmentTail_le hsorted).2 event.time hfirst
    exact Int.le_trans hsum (Int.le_trans
      (overlap_le_window (le_accountingEndOf date asOf) _ _) hday)

theorem rowOf_day (h : appId ∈ billedApps events) (date asOf : Time) :
    rowOf (aggregateWorkspaceDay localeCompare workspaceId date asOf events apps).perApp appId =
      if 0 < (dayBill date asOf events apps appId).installedMs then
        some ((dayBill date asOf events apps appId).onRow
          ((rowOf (computeRows (utcDay date) (accountingEndOf date asOf) events) appId).getD
            (emptyRow appId)))
      else rowOf (computeRows (utcDay date) (accountingEndOf date asOf) events) appId := by
  rw [rowOf_aggregateWorkspaceDay, rowOf_dayRows_of_billed h]
  rfl

theorem installedFraction_day (h : appId ∈ billedApps events) (date asOf : Time) :
    installedFraction (aggregateWorkspaceDay localeCompare workspaceId date asOf events apps) appId =
      (dayBill date asOf events apps appId).installedMs / dayMs := by
  rw [installedFraction, rowOf_day h]
  split
  · rfl
  next hms =>
    have hzero : (dayBill date asOf events apps appId).installedMs = 0 :=
      Int.le_antisymm (Int.not_lt.mp hms) installedMs_dayBill_nonneg
    rw [hzero, Int.cast_zero, zero_div]
    cases hrow : rowOf (computeRows (utcDay date) (accountingEndOf date asOf) events) appId with
    | none => rfl
    | some row => exact (allUnbilled_computeRows _ _ hrow).installedDayFraction

/-! ### A run of days, the maxima of a row, and later events -/

theorem billedWithin_empty (lo : Time) (intervals : List BillableInterval) :
    billedWithin lo lo intervals = 0 := by
  refine sum_eq_zero fun ms hms ↦ ?_
  obtain ⟨interval, -, rfl⟩ := List.mem_map.mp hms
  exact overlap_empty_window lo _ _

theorem within_add (h : lo ≤ mid) (h' : mid ≤ hi) (interval : BillableInterval) :
    interval.within lo mid + interval.within mid hi = interval.within lo hi := by
  unfold BillableInterval.within
  cases interval.endAt with
  | some endAt => exact overlap_add_window h h' interval.since endAt
  | none => exact overlap_add_window_rest h h' interval.since

theorem billedWithin_add (h : lo ≤ mid) (h' : mid ≤ hi) (intervals : List BillableInterval) :
    billedWithin lo mid intervals + billedWithin mid hi intervals = billedWithin lo hi intervals := by
  induction intervals with
  | nil => rfl
  | cons interval intervals ih =>
    simp only [billedWithin, map_cons, sum_cons] at ih ⊢
    rw [add_add_add_comm, ih, within_add h h']

/-- The rows of consecutive complete days bill what the intervals measure in all of them. -/
theorem sum_installedFraction (h : appId ∈ billedApps events) {n : Nat} {asOf : Nat → Time}
    (hcomplete : ∀ k < n, utcDay date + (k + 1) * dayMs ≤ asOf k) :
    ((range n).map fun k : Nat ↦ installedFraction (aggregateWorkspaceDay localeCompare
        workspaceId (date + k * dayMs) (asOf k) events apps) appId * dayMs).sum =
      billedWithin (utcDay date) (utcDay date + n * dayMs)
        (billableIntervals (endsAfterChange (removedAt? apps appId)) none
          (billingEvents events appId)) := by
  let intervals := billableIntervals (endsAfterChange (removedAt? apps appId)) none
    (billingEvents events appId)
  have hdays : ∀ k ∈ range n, installedFraction (aggregateWorkspaceDay localeCompare
      workspaceId (date + k * dayMs) (asOf k) events apps) appId * dayMs =
      ((billedWithin (utcDay date + k * dayMs) (utcDay date + (k + 1) * dayMs) intervals : Int) :
        Rat) := by
    intro k hk
    have hend : utcDay (date + k * dayMs) + dayMs = utcDay date + (k + 1) * dayMs := by
      rw [utcDay_add_days]
      ring
    have hfull : accountingEndOf (date + k * dayMs) (asOf k) = utcDay date + (k + 1) * dayMs := by
      rw [← hend]
      exact accountingEndOf_complete (hend ▸ hcomplete k (mem_range.mp hk))
    have hday : (dayMs : Rat) ≠ 0 := Int.cast_ne_zero.mpr (ne_of_gt dayMs_pos)
    rw [installedFraction_day h, div_mul_cancel₀ _ hday, installedMs_dayBill, hfull,
      utcDay_add_days]
  rw [map_congr_left hdays]
  have hsum := sum_windows (f := fun lo hi ↦ billedWithin lo hi intervals)
    (Int.le_of_lt dayMs_pos) (billedWithin_empty (utcDay date) intervals)
    (fun mid hi h h' ↦ billedWithin_add h h' intervals) n
  calc _ = ((((range n).map fun k : Nat ↦ billedWithin (utcDay date + k * dayMs)
        (utcDay date + (k + 1) * dayMs) intervals).sum : Int) : Rat) := by
        rw [Int.cast_list_sum, List.map_map]
        rfl
    _ = _ := congrArg _ hsum

/-- What a row says of the app, by the segments that overlap its day. -/
structure RowMaxima (segments : Set Segment) (row : PerAppRow) : Prop where
  memoryMb : IsGreatest (insert 0 ((·.resources.memoryMb) '' segments)) row.resources.memoryMb
  cpus : IsGreatest (insert 0 ((·.resources.cpus) '' segments)) row.resources.cpus
  tmpSizeMb : IsGreatest (insert 0 ((·.resources.tmpSizeMb) '' segments))
    (row.resources.tmpSizeMb.getD 0)
  replicaCount : IsGreatest (insert 0 ((·.replicaCount) '' segments)) row.replicaCount

/-- The segments of an app that have a part inside a day. -/
def overlapping (date asOf : Time) (events : List AppLifecycleEvent) (apps : List MasterApp)
    (appId : String) : Set Segment :=
  {segment | segment ∈ daySegments date asOf events apps appId ∧
    segment.Overlaps (utcDay date) (accountingEndOf date asOf)}

theorem onRow_maxima :
    RowMaxima (overlapping date asOf events apps appId)
      ((dayBill date asOf events apps appId).onRow row) where
  memoryMb := isGreatest_billOf (g := (·.maxMemoryMb))
    (fun _ _ h ↦ by rw [addSegment_of_overlaps h]) _
  cpus := isGreatest_billOf (g := (·.maxCpus))
    (fun _ _ h ↦ by rw [addSegment_of_overlaps h]) _
  tmpSizeMb := isGreatest_billOf (g := (·.maxTmpSizeMb.getD 0))
    (fun _ _ h ↦ by rw [addSegment_of_overlaps h, Option.getD_some]) _
  replicaCount := isGreatest_billOf (g := (·.maxReplicaCount))
    (fun _ _ h ↦ by rw [addSegment_of_overlaps h]) _

/-- A day that bills nothing overlaps no segment. -/
theorem overlapping_eq_empty (h : (dayBill date asOf events apps appId).installedMs ≤ 0) :
    overlapping date asOf events apps appId = ∅ := by
  rw [Set.eq_empty_iff_forall_notMem]
  rintro segment ⟨hmem, hoverlaps⟩
  have hms : 0 < segment.billedMs (utcDay date) (accountingEndOf date asOf) :=
    lt_max_of_lt_right (Int.sub_pos_of_lt hoverlaps)
  have hsum : segment.billedMs (utcDay date) (accountingEndOf date asOf) ≤
      ((daySegments date asOf events apps appId).map
        (·.billedMs (utcDay date) (accountingEndOf date asOf))).sum := by
    refine single_le_sum (fun ms hms ↦ ?_) _ (List.mem_map_of_mem hmem)
    obtain ⟨segment, -, rfl⟩ := List.mem_map.mp hms
    exact overlap_nonneg _ _ _ _
  rw [dayBill, appBill, installedMs_billOf] at h
  exact absurd (Int.lt_of_lt_of_le hms hsum) (Int.not_lt.mpr h)

theorem row_maxima (h : appId ∈ billedApps events)
    (hrow : rowOf (aggregateWorkspaceDay localeCompare workspaceId date asOf events apps).perApp
      appId = some row) : RowMaxima (overlapping date asOf events apps appId) row := by
  rw [rowOf_day h] at hrow
  split at hrow
  · rw [← some.inj hrow]
    exact onRow_maxima
  next hms =>
    have hunbilled := allUnbilled_computeRows _ _ hrow
    rw [overlapping_eq_empty (Int.not_lt.mp hms)]
    constructor <;> simp [hunbilled.resources, hunbilled.replicaCount]

/-- Events from the end of a complete day on do not change the bill of the day. -/
theorem dayBill_append (hremoved : removedAt? apps appId = none)
    (hcomplete : utcDay date + dayMs ≤ asOf)
    (hlater : ∀ event ∈ later, utcDay date + dayMs ≤ event.time) :
    dayBill date asOf (events ++ later) apps appId = dayBill date asOf events apps appId := by
  have htail : segmentTail (utcDay date + dayMs) none = fun _ ↦ utcDay date + dayMs := rfl
  have hbefore : (billingEvents (events ++ later) appId).filter
      (fun event ↦ event.time < utcDay date + dayMs) =
      (billingEvents events appId).filter fun event ↦ event.time < utcDay date + dayMs := by
    have hfilter : (later.filter fun event ↦ billingInterval event.type && event.appId == appId).filter
        (fun event ↦ event.time < utcDay date + dayMs) = [] :=
      filter_eq_nil_iff.mpr fun event hevent ↦ by
        simpa using hlater event (mem_filter.mp hevent).1
    rw [billingEvents, billingEvents, filter_sortByTime, filter_sortByTime, filter_append,
      filter_append, hfilter, append_nil]
  unfold dayBill appBill billOf
  rw [accountingEndOf_complete hcomplete, hremoved, htail,
    foldl_addSegment_filter pairwise_billingEvents, hbefore,
    ← foldl_addSegment_filter pairwise_billingEvents]

theorem computeRows_append (hlater : ∀ event ∈ later, utcDay date + dayMs ≤ event.time) :
    computeRows (utcDay date) (accountingEndOf date asOf) (events ++ later) =
      computeRows (utcDay date) (accountingEndOf date asOf) events := by
  have hfilter : later.filter (fun event ↦
      !appLevelOnly event.type && event.time < accountingEndOf date asOf) = [] := by
    refine filter_eq_nil_iff.mpr fun event hevent ↦ ?_
    have hlate := Int.le_trans (accountingEndOf_le date asOf) (hlater event hevent)
    simp [Int.not_lt.mpr hlate]
  unfold computeRows
  rw [filter_append, hfilter, append_nil]

theorem rowOf_append (h : appId ∈ billedApps events) (hremoved : removedAt? apps appId = none)
    (hcomplete : utcDay date + dayMs ≤ asOf)
    (hlater : ∀ event ∈ later, utcDay date + dayMs ≤ event.time) :
    rowOf (aggregateWorkspaceDay localeCompare workspaceId date asOf (events ++ later) apps).perApp
        appId =
      rowOf (aggregateWorkspaceDay localeCompare workspaceId date asOf events apps).perApp appId := by
  have hmore : appId ∈ billedApps (events ++ later) := by
    obtain ⟨event, hmem, hevent⟩ := mem_billedApps.mp h
    exact mem_billedApps.mpr ⟨event, mem_append_left _ hmem, hevent⟩
  rw [rowOf_day h, rowOf_day hmore, dayBill_append hremoved hcomplete hlater,
    computeRows_append hlater]

theorem mem_billedApps_of_installed
    (h : ∃ event ∈ events, event.appId = appId ∧ event.type = .installed) :
    appId ∈ billedApps events := by
  obtain ⟨event, hmem, hid, htype⟩ := h
  exact mem_billedApps.mpr ⟨event, hmem, hid, by rw [htype]; rfl⟩

end Day

/-! ## Billing is conserved -/

/--
The rows of an app that was ever installed. Over any run of complete days they bill its billable
intervals, where an interval that no event closes ends at the removal of the app, or at its last
change if that is later; no day bills more than itself; a row shows the maxima of its segments;
and events from the end of a day on leave its row alone, unless there is a record of a removal.
-/
theorem aggregateWorkspaceDay_conserves (localeCompare : String → String → Bool)
    (workspaceId : String) (apps : List MasterApp) {appId : String} {events : List AppLifecycleEvent}
    (hinstalled : ∃ event ∈ events, event.appId = appId ∧ event.type = .installed) :
    (∀ (date : Time) (n : Nat) (asOf : Nat → Time),
      (∀ k < n, utcDay date + (k + 1) * dayMs ≤ asOf k) →
      ((List.range n).map fun k : Nat ↦ installedFraction (aggregateWorkspaceDay localeCompare
          workspaceId (date + k * dayMs) (asOf k) events apps) appId * dayMs).sum =
        billedWithin (utcDay date) (utcDay date + n * dayMs)
          (billableIntervals (endsAfterChange (removedAt? apps appId)) none
            (billingEvents events appId))) ∧
    (∀ date asOf, 0 ≤ installedFraction
        (aggregateWorkspaceDay localeCompare workspaceId date asOf events apps) appId ∧
      installedFraction
        (aggregateWorkspaceDay localeCompare workspaceId date asOf events apps) appId ≤ 1) ∧
    (∀ date asOf row,
      rowOf (aggregateWorkspaceDay localeCompare workspaceId date asOf events apps).perApp appId =
        some row → RowMaxima (overlapping date asOf events apps appId) row) ∧
    (removedAt? apps appId = none → ∀ date asOf, utcDay date + dayMs ≤ asOf →
      ∀ later, (∀ event ∈ later, utcDay date + dayMs ≤ event.time) →
      rowOf (aggregateWorkspaceDay localeCompare workspaceId date asOf (events ++ later) apps).perApp
          appId =
        rowOf (aggregateWorkspaceDay localeCompare workspaceId date asOf events apps).perApp
          appId) := by
  have hbilled := mem_billedApps_of_installed hinstalled
  refine ⟨fun date n asOf hcomplete ↦ sum_installedFraction hbilled hcomplete,
    fun date asOf ↦ ?_, fun date asOf row hrow ↦ row_maxima hbilled hrow,
    fun hremoved date asOf hcomplete later hlater ↦
      rowOf_append hbilled hremoved hcomplete hlater⟩
  have hday : (0 : Rat) < dayMs := Int.cast_pos.mpr dayMs_pos
  rw [installedFraction_day hbilled]
  refine ⟨div_nonneg (Int.cast_nonneg installedMs_dayBill_nonneg) hday.le, ?_⟩
  rw [div_le_one₀ hday]
  exact Int.cast_le.mpr installedMs_dayBill_le

namespace Sample

def event (type : LifecycleEventType) (time : Time) : AppLifecycleEvent where
  eventId := "event"
  workspaceId := "acme"
  appId := "notes"
  type := type
  resources := ⟨512, 1 / 2, 64⟩
  time := time

/-- An app installed at midnight, resized at ten and uninstalled at noon. -/
def halfDay : List AppLifecycleEvent :=
  [event .installed 0, event .uninstalled (12 * hourMs), event .resized (10 * hourMs)]

end Sample

/-- Half a day is billed on the first of two days, and nothing on the second. -/
theorem aggregateWorkspaceDay_conserves_halfDay :
    ((List.range 2).map fun k : Nat ↦ installedFraction (aggregateWorkspaceDay (fun _ _ ↦ true)
      "acme" (0 + k * dayMs) (2 * dayMs) Sample.halfDay []) "notes" * dayMs).sum = 12 * hourMs := by
  have hinstalled : ∃ event ∈ Sample.halfDay, event.appId = "notes" ∧ event.type = .installed :=
    ⟨_, mem_cons_self, rfl, rfl⟩
  have hsum := (aggregateWorkspaceDay_conserves (fun _ _ ↦ true) "acme" [] hinstalled).1 0 2 (fun _ ↦ 2 * dayMs) (by decide)
  rw [hsum]
  have hms : billedWithin (utcDay 0) (utcDay 0 + (2 : Nat) * dayMs)
      (billableIntervals (endsAfterChange (removedAt? [] "notes")) none
        (billingEvents Sample.halfDay "notes")) = 12 * hourMs := by decide +kernel
  rw [hms, Int.cast_mul]
  rfl

/-- A resize that comes after the removal time of the record is billed up to the resize. -/
theorem aggregateWorkspaceDay_bills_past_removal :
    ¬ ∀ (localeCompare : String → String → Bool) (workspaceId : String) (apps : List MasterApp)
      (appId : String) (events : List AppLifecycleEvent),
      (∃ event ∈ events, event.appId = appId ∧ event.type = .installed) →
      ∀ (date : Time) (n : Nat) (asOf : Nat → Time),
        (∀ k < n, utcDay date + (k + 1) * dayMs ≤ asOf k) →
        ((List.range n).map fun k : Nat ↦ installedFraction (aggregateWorkspaceDay localeCompare
            workspaceId (date + k * dayMs) (asOf k) events apps) appId * dayMs).sum =
          billedWithin (utcDay date) (utcDay date + n * dayMs)
            (billableIntervals (endsAtRemoval (removedAt? apps appId)) none
              (billingEvents events appId)) := by
  intro h
  let events := [Sample.event .installed 0, Sample.event .resized (10 * hourMs)]
  let removed : MasterApp := { Sample.app none .removed none with updatedAt := 5 * hourMs }
  have hinstalled : ∃ event ∈ events, event.appId = "notes" ∧ event.type = .installed :=
    ⟨_, mem_cons_self, rfl, rfl⟩
  have hclaimed := h (fun _ _ ↦ true) "acme" [removed] "notes" events hinstalled 0 1
    (fun _ ↦ dayMs) (by decide)
  rw [(aggregateWorkspaceDay_conserves _ _ _ hinstalled).1 0 1 (fun _ ↦ dayMs) (by decide),
    Int.cast_inj] at hclaimed
  have hdiffer : billedWithin (utcDay 0) (utcDay 0 + (1 : Nat) * dayMs)
        (billableIntervals (endsAfterChange (removedAt? [removed] "notes")) none
          (billingEvents events "notes")) ≠
      billedWithin (utcDay 0) (utcDay 0 + (1 : Nat) * dayMs)
        (billableIntervals (endsAtRemoval (removedAt? [removed] "notes")) none
          (billingEvents events "notes")) := by decide +kernel
  exact hdiffer hclaimed

end Usage

end PrivosCluster
