import Mathlib.Algebra.Order.BigOperators.Group.List
import PrivosCluster.DocumentStore.Collection

/-!
# Totals over the documents of a collection

A total adds up a weight of each document. A write changes it by the weight of what is written,
less the weight of what is replaced.
-/

namespace DocumentStore

open List

variable {α κ M : Type}

def total [AddMonoid M] (weight : α → M) (docs : List α) : M := (docs.map weight).sum

section Monoid

variable [AddCommMonoid M] {weight : α → M} {filter : α → Bool} {update : α → α} {docs docs' : List α}

@[simp] theorem total_nil : total weight [] = 0 := rfl

@[simp] theorem total_cons (d : α) : total weight (d :: docs) = weight d + total weight docs := by
  simp [total]

@[simp] theorem total_append :
    total weight (docs ++ docs') = total weight docs + total weight docs' := by
  simp [total]

/-- An update in place exchanges the weight of the document that it finds. -/
theorem total_updateFirst {d : α} (h : docs.find? filter = some d) :
    total weight (updateFirst filter update docs) + weight d =
      total weight docs + weight (update d) := by
  induction docs with
  | nil => cases h
  | cons d' docs ih =>
    by_cases hf : filter d'
    · rw [find?_cons_of_pos hf] at h
      obtain rfl := Option.some.inj h
      simp only [updateFirst, hf, if_true, total_cons]
      ac_rfl
    · rw [find?_cons_of_neg hf] at h
      simp only [updateFirst, hf, Bool.false_eq_true, if_false, total_cons]
      rw [add_assoc, ih h, add_assoc]

/-- An update that leaves the weights alone. -/
theorem total_updateFirst_of_eq (h : ∀ d ∈ docs, filter d → weight (update d) = weight d) :
    total weight (updateFirst filter update docs) = total weight docs := by
  induction docs with
  | nil => rfl
  | cons d docs ih =>
    unfold updateFirst
    split
    next hf => rw [total_cons, total_cons, h d mem_cons_self hf]
    · rw [total_cons, total_cons, ih fun d' hd' ↦ h d' (mem_cons_of_mem _ hd')]

/-- The documents that pass a test make up the total of those weights that count only then. -/
theorem total_filter {p : α → Bool} :
    total weight (docs.filter p) = total (fun d ↦ if p d then weight d else 0) docs := by
  induction docs with
  | nil => rfl
  | cons d docs ih =>
    by_cases hp : p d
    · simp [hp, ih]
    · simp [hp, ih]

/-- One document and the others, told apart by an identity. -/
theorem total_eq_add_others [DecidableEq κ] {id : α → κ} (hids : (docs.map id).Nodup) {d : α}
    (hd : d ∈ docs) :
    total weight docs = weight d + total weight (docs.filter fun d' ↦ id d' != id d) := by
  induction docs with
  | nil => cases hd
  | cons d' docs ih =>
    simp only [map_cons, nodup_cons, List.mem_map, not_exists, not_and] at hids
    obtain rfl | hd := mem_cons.mp hd
    · have hrest : docs.filter (fun d' ↦ id d' != id d) = docs := by
        apply filter_eq_self.mpr
        intro d' hd'
        exact bne_iff_ne.mpr (hids.1 d' hd')
      rw [total_cons, filter_cons_of_neg (by simp), hrest]
    · have hne : id d' ≠ id d := fun h ↦ hids.1 d hd h.symm
      rw [total_cons, ih hids.2 hd, filter_cons_of_pos (by simpa using hne)]
      ac_rfl

variable [PartialOrder M] [IsOrderedAddMonoid M]

theorem total_le_total {weight' : α → M} (h : ∀ d ∈ docs, weight d ≤ weight' d) :
    total weight docs ≤ total weight' docs :=
  sum_le_sum h

end Monoid

end DocumentStore
