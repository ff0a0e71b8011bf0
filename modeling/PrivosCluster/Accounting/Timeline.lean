import Mathlib.Data.List.Sort
import Mathlib.Algebra.BigOperators.Group.List.Basic
import Mathlib.Order.Bounds.Basic
import Mathlib.Tactic.Ring

/-!
# Time lines

Lengths of half-open intervals inside a window, and stable sorting by a time stamp. Windows that
lie end to end measure together what one long window measures, and the pieces of an interval
measure together what the interval does.
-/

namespace Accounting

open List

/-- The length of what the intervals from `lo` to `hi` and from `a` to `b` have in common. -/
def overlap (lo hi a b : Int) : Int := max 0 (min hi b - max lo a)

theorem overlap_nonneg (lo hi a b : Int) : 0 ≤ overlap lo hi a b := Int.le_max_left _ _

theorem overlap_le_window {lo hi : Int} (h : lo ≤ hi) (a b : Int) : overlap lo hi a b ≤ hi - lo := by
  unfold overlap
  omega

theorem overlap_of_empty {a b : Int} (h : b ≤ a) (lo hi : Int) : overlap lo hi a b = 0 := by
  unfold overlap
  omega

/-- Two windows end to end. -/
theorem overlap_add_window {lo mid hi : Int} (h : lo ≤ mid) (h' : mid ≤ hi) (a b : Int) :
    overlap lo mid a b + overlap mid hi a b = overlap lo hi a b := by
  unfold overlap
  omega

/-- Two pieces of an interval. -/
theorem overlap_add_piece {a c b : Int} (h : a ≤ c) (h' : c ≤ b) (lo hi : Int) :
    overlap lo hi a c + overlap lo hi c b = overlap lo hi a b := by
  unfold overlap
  omega

/-- The window ends an interval that does not end before it. -/
theorem overlap_min_hi (lo hi a b : Int) : overlap lo hi a (min hi b) = overlap lo hi a b := by
  unfold overlap
  omega

/-- Two pieces of an interval that the end of the window cuts. -/
theorem overlap_add_rest {a c : Int} (h : a ≤ c) (lo hi : Int) :
    overlap lo hi a c + overlap lo hi c hi = overlap lo hi a hi := by
  unfold overlap
  omega

/-- Two windows end to end, over an interval without an end. -/
theorem overlap_add_window_rest {lo mid hi : Int} (h : lo ≤ mid) (h' : mid ≤ hi) (a : Int) :
    overlap lo mid a mid + overlap mid hi a hi = overlap lo hi a hi := by
  unfold overlap
  omega

theorem overlap_empty_window (lo a b : Int) : overlap lo lo a b = 0 := by
  unfold overlap
  omega

theorem overlap_mono_left {a c : Int} (h : a ≤ c) (lo hi b : Int) :
    overlap lo hi c b ≤ overlap lo hi a b := by
  unfold overlap
  omega

theorem overlap_mono_right {b c : Int} (h : b ≤ c) (lo hi a : Int) :
    overlap lo hi a b ≤ overlap lo hi a c := by
  unfold overlap
  omega

/-- What is measured alike by windows end to end adds up over a run of equal windows. -/
theorem sum_windows {f : Int → Int → Int} {lo size : Int} (hsize : 0 ≤ size)
    (hempty : f lo lo = 0)
    (hadd : ∀ mid hi, lo ≤ mid → mid ≤ hi → f lo mid + f mid hi = f lo hi) (n : Nat) :
    ((range n).map fun k : Nat ↦ f (lo + k * size) (lo + (k + 1) * size)).sum =
      f lo (lo + n * size) := by
  induction n with
  | zero => simp [hempty]
  | succ n ih =>
    have hn : 0 ≤ (n : Int) * size := Int.mul_nonneg (Int.natCast_nonneg n) hsize
    have hnext : lo + ((n : Int) + 1) * size = lo + n * size + size := by ring
    rw [range_succ, map_append, sum_append, ih]
    simp only [map_cons, map_nil, sum_cons, sum_nil, add_zero, Nat.cast_succ]
    exact hadd _ _ (by omega) (by omega)

/-- A running maximum is the greatest of its start and the values it has met. -/
theorem isGreatest_foldl_max {α : Type} [LinearOrder α] (values : List α) (start : α) :
    IsGreatest (insert start {a | a ∈ values}) (values.foldl max start) := by
  induction values generalizing start with
  | nil => simp [IsGreatest, upperBounds]
  | cons a values ih =>
    obtain ⟨hmem, hbound⟩ := ih (max start a)
    refine ⟨?_, fun b hb ↦ ?_⟩
    · obtain hmax | hmem := hmem
      · obtain h | h := max_choice start a
        · exact .inl (hmax.trans h)
        · exact .inr (by simp [hmax.trans h])
      · exact .inr (mem_cons_of_mem _ hmem)
    · have hstart : max start a ≤ values.foldl max (max start a) := hbound (.inl rfl)
      obtain rfl | hb := hb
      · exact (le_max_left _ _).trans hstart
      · obtain rfl | hb := mem_cons.mp hb
        · exact (le_max_right _ _).trans hstart
        · exact hbound (.inr hb)

/-! ## Stable sorting by a time stamp -/

section Sorting

variable {α : Type} (time : α → Int)

/-- No later than. -/
def NotAfter (a b : α) : Prop := time a ≤ time b

instance : DecidableRel (NotAfter time) := fun a b ↦ inferInstanceAs (Decidable (time a ≤ time b))

instance : Std.Total (NotAfter time) := ⟨fun a b ↦ Int.le_total (time a) (time b)⟩

instance : IsTrans α (NotAfter time) := ⟨fun _ _ _ ↦ Int.le_trans⟩

/-- The items in the order of their times; items of one time keep their order. -/
def sortByTime (items : List α) : List α := items.insertionSort (NotAfter time)

theorem pairwise_sortByTime (items : List α) : (sortByTime time items).Pairwise (NotAfter time) :=
  pairwise_insertionSort _ items

theorem mem_sortByTime {items : List α} {a : α} : a ∈ sortByTime time items ↔ a ∈ items :=
  mem_insertionSort _

theorem filter_orderedInsert {p : α → Bool} {a : α} {items : List α}
    (hsorted : items.Pairwise (NotAfter time)) :
    (items.orderedInsert (NotAfter time) a).filter p =
      if p a then (items.filter p).orderedInsert (NotAfter time) a else items.filter p := by
  induction items with
  | nil => simp [filter_cons]
  | cons b items ih =>
    rw [pairwise_cons] at hsorted
    by_cases hle : NotAfter time a b
    · rw [orderedInsert_cons_of_le _ _ hle]
      -- everything that is left in the list is as late as `b`
      have hlate : ∀ c ∈ (b :: items).filter p, NotAfter time a c := by
        intro c hc
        obtain rfl | hc := mem_cons.mp (mem_filter.mp hc).1
        · exact hle
        · exact Int.le_trans hle (hsorted.1 c hc)
      have hhead : ((b :: items).filter p).orderedInsert (NotAfter time) a =
          a :: (b :: items).filter p := by
        cases hrest : (b :: items).filter p with
        | nil => rfl
        | cons c rest =>
          exact orderedInsert_cons_of_le _ _ (hlate c (by rw [hrest]; exact mem_cons_self))
      rw [hhead, filter_cons]
    · rw [orderedInsert_of_not_le _ _ hle, filter_cons, ih hsorted.2]
      by_cases hpb : p b = true
      · by_cases hpa : p a = true
        · simp [hpa, hpb, hle]
        · simp [hpa, hpb]
      · simp [hpb]

/-- Picking items out and sorting them may be done in either order. -/
theorem filter_sortByTime {p : α → Bool} (items : List α) :
    (sortByTime time items).filter p = sortByTime time (items.filter p) := by
  induction items with
  | nil => rfl
  | cons a items ih =>
    have hinsert := filter_orderedInsert time (p := p) (a := a) (pairwise_sortByTime time items)
    calc (sortByTime time (a :: items)).filter p
        = ((sortByTime time items).orderedInsert (NotAfter time) a).filter p := rfl
      _ = sortByTime time ((a :: items).filter p) := by
        rw [hinsert, ih, filter_cons]
        split
        · rfl
        · rfl

end Sorting

end Accounting
