import PrivosCluster.DocumentStore.Collection
import Mathlib.Data.List.Flatten

/-!
# Operations on all matching documents

Besides the operations on one document a collection takes updates and deletions of every document
that matches. The second half of this file is about documents that an operation spares: it neither
changes them nor adds any, so the list of them is the same before and after.
-/

namespace DocumentStore

open List

variable {α : Type} {keys : α → List IndexKey}

inductive BulkOperation (α : Type) where
  | one (op : Operation α)
  | updateMany (filter : α → Bool) (update : α → α)
  | deleteMany (filter : α → Bool)

@[reducible] def BulkOperation.Answer : BulkOperation α → Type
  | .one op => op.Answer
  | .updateMany _ _ => UpdateResult
  | .deleteMany _ => Nat

/-- Every matching document is updated in place. -/
def updateAll (filter : α → Bool) (update : α → α) (docs : List α) : List α :=
  docs.map fun d ↦ if filter d then update d else d

variable {filter : α → Bool} {update : α → α} {d : α} {P : α → Prop}

namespace Collection

/-- The documents that do not match; fewer entries break no index. -/
def remove (c : Collection α keys) (filter : α → Bool) : Collection α keys where
  docs := c.docs.filter fun d ↦ !filter d
  unique := c.unique.sublist (List.filter_sublist.flatMap keys)

variable [DecidableEq α]

/-- An update of all matching documents is refused as a whole when it would break an index. -/
def applyBulk (pick : Nat) (c : Collection α keys) :
    (op : BulkOperation α) → Except WriteError op.Answer × Collection α keys
  | .one op => c.apply pick op
  | .updateMany filter update =>
    let changed := c.docs.filter fun d ↦ filter d && update d != d
    if h : ((updateAll filter update c.docs).flatMap keys).Nodup then
      (.ok ⟨(c.docs.filter filter).length, changed.length⟩, ⟨_, h⟩)
    else (.error (.duplicateKey []), c)
  | .deleteMany filter => (.ok (c.docs.filter filter).length, c.remove filter)

/-- An update of all matching documents that breaks no index. -/
theorem docs_updateMany {c : Collection α keys} {pick : Nat}
    (h : ((updateAll filter update c.docs).flatMap keys).Nodup) :
    (c.applyBulk pick (.updateMany filter update)).2.docs = updateAll filter update c.docs := by
  simp only [applyBulk, dif_pos h]

end Collection

/-! ## Spared documents -/

/-- The operation neither changes nor adds a document of the kind `p`. -/
def Operation.Spares (p : α → Bool) (docs : List α) : Operation α → Prop
  | .updateOne filter update => ∀ d ∈ docs, filter d = true → p d = false ∧ p (update d) = false
  | .upsertOne filter update fresh =>
    (∀ d ∈ docs, filter d = true → p d = false ∧ p (update d) = false) ∧ p fresh = false
  | .insertOne doc => p doc = false
  | .insertMany docs => ∀ d ∈ docs, p d = false
  | .replaceOne filter replacement =>
    ∀ d ∈ docs, filter d = true → p d = false ∧ p replacement = false
  | _ => True

def BulkOperation.Spares (p : α → Bool) (docs : List α) : BulkOperation α → Prop
  | .one op => op.Spares p docs
  | .updateMany filter update => ∀ d ∈ docs, filter d = true → p d = false ∧ p (update d) = false
  | .deleteMany filter => ∀ d ∈ docs, filter d = true → p d = false

/-- The operation may leave `d` in a collection with documents `docs`. -/
def BulkOperation.Writes (docs : List α) (d : α) : BulkOperation α → Prop
  | .one op => op.Writes docs d
  | .updateMany filter update => ∃ d₀ ∈ docs, filter d₀ = true ∧ d = update d₀
  | .deleteMany _ => False

/-- A property of all documents that the operation keeps. -/
def BulkOperation.Respects (P : α → Prop) : BulkOperation α → Prop
  | .one op => op.Respects P
  | .updateMany filter update => ∀ d, P d → filter d = true → P (update d)
  | .deleteMany _ => True

/-- A document with `P` keeps it, when every document satisfies `I`. -/
def BulkOperation.Carries (I P : α → Prop) : BulkOperation α → Prop
  | .one op => op.Carries I P
  | .updateMany filter update => ∀ d, I d → P d → filter d = true → P (update d)
  | .deleteMany filter => ∀ d, I d → P d → filter d = false

theorem filter_updateFirst {p : α → Bool} {docs : List α}
    (h : ∀ d ∈ docs, filter d → p d = false ∧ p (update d) = false) :
    (updateFirst filter update docs).filter p = docs.filter p := by
  induction docs with
  | nil => rfl
  | cons d docs ih =>
    have hd := h d mem_cons_self
    have hdocs := ih fun d' hd' ↦ h d' (mem_cons_of_mem _ hd')
    unfold updateFirst
    split
    next hf => simp [hd hf]
    next hf => rw [filter_cons, filter_cons, hdocs]

theorem filter_updateAll {p : α → Bool} {docs : List α}
    (h : ∀ d ∈ docs, filter d → p d = false ∧ p (update d) = false) :
    (updateAll filter update docs).filter p = docs.filter p := by
  induction docs with
  | nil => rfl
  | cons d docs ih =>
    have hd := h d mem_cons_self
    have hdocs := ih fun d' hd' ↦ h d' (mem_cons_of_mem _ hd')
    rw [updateAll, map_cons, ← updateAll, filter_cons, filter_cons, hdocs]
    split
    next hf => simp [hd hf]
    next hf => rfl

/-- A document after an update of all matching ones was there before, or is an updated one. -/
theorem mem_updateAll {docs : List α} (h : d ∈ updateAll filter update docs) :
    d ∈ docs ∨ ∃ d₀ ∈ docs, filter d₀ ∧ d = update d₀ := by
  obtain ⟨d₀, hd₀, hd⟩ := List.mem_map.mp h
  split at hd
  next hf => exact .inr ⟨d₀, hd₀, hf, hd.symm⟩
  next => exact .inl (hd ▸ hd₀)

namespace Collection

variable {c : Collection α keys} {pick : Nat}

variable {p : α → Bool}

theorem filter_put {β : Type} {docs : List α} {changed : α} {answer : β}
    (h : docs.filter p = c.docs.filter p) :
    (c.put pick docs changed answer).2.docs.filter p = c.docs.filter p := by
  rcases put_docs c pick docs changed answer with hdocs | hdocs <;> rw [hdocs]
  exact h

theorem filter_append_single {docs : List α} (h : p d = false) :
    (docs ++ [d]).filter p = docs.filter p := by
  simp [filter_append, h]

theorem filter_insertAll {ds : List α} (h : ∀ d ∈ ds, p d = false) :
    (c.insertAll pick ds).2.docs.filter p = c.docs.filter p := by
  induction ds generalizing c with
  | nil => rfl
  | cons d ds ih =>
    have hput : (c.put pick (c.docs ++ [d]) d ()).2.docs.filter p = c.docs.filter p :=
      filter_put (filter_append_single (h d mem_cons_self))
    unfold insertAll
    split
    next c' heq =>
      rw [heq] at hput
      exact (ih fun d' hd' ↦ h d' (mem_cons_of_mem _ hd')).trans hput
    next c' heq => rwa [heq] at hput

variable [DecidableEq α]

theorem filter_apply {op : Operation α} (h : op.Spares p c.docs) :
    (c.apply pick op).2.docs.filter p = c.docs.filter p := by
  cases op with
  | findOne | find => rfl
  | insertOne doc => exact filter_put (filter_append_single h)
  | insertMany docs =>
    simp only [apply]
    split
    · rfl
    · exact filter_insertAll h
  | updateOne filter update =>
    simp only [apply]
    split
    · rfl
    · exact filter_put (filter_updateFirst h)
  | upsertOne filter update fresh =>
    simp only [apply]
    split
    · exact filter_put (filter_append_single h.2)
    · exact filter_put (filter_updateFirst h.1)
  | replaceOne filter replacement =>
    simp only [apply]
    split
    · rfl
    · exact filter_put (filter_updateFirst h)

variable {op : BulkOperation α}

theorem filter_applyBulk (h : op.Spares p c.docs) :
    (c.applyBulk pick op).2.docs.filter p = c.docs.filter p := by
  cases op with
  | one op => exact filter_apply h
  | updateMany filter update =>
    simp only [applyBulk]
    split
    · exact filter_updateAll h
    · rfl
  | deleteMany filter =>
    have hboth : ∀ d ∈ c.docs, (p d && !filter d) = p d := by
      intro d hd
      cases hf : filter d
      · simp
      · simp [h d hd hf]
    simp only [applyBulk, remove, List.filter_filter]
    exact filter_congr hboth

theorem mem_applyBulk (h : d ∈ (c.applyBulk pick op).2.docs) : d ∈ c.docs ∨ op.Writes c.docs d := by
  cases op with
  | one op => exact mem_apply h
  | updateMany filter update =>
    simp only [applyBulk] at h
    split at h
    · exact mem_updateAll h
    · exact .inl h
  | deleteMany filter => exact .inl (mem_filter.mp h).1

theorem forall_applyBulk (hop : op.Respects P) (h : ∀ d ∈ c.docs, P d) :
    ∀ d ∈ (c.applyBulk pick op).2.docs, P d := by
  cases op with
  | one op => exact forall_apply hop h
  | updateMany filter update =>
    simp only [applyBulk]
    split
    · intro d hd
      obtain hd | ⟨before, hbefore, hfilter, rfl⟩ := mem_updateAll hd
      · exact h d hd
      · exact hop before (h before hbefore) hfilter
    · exact h
  | deleteMany filter => exact fun d hd ↦ h d (mem_filter.mp hd).1

/-- A kind of document that occurs goes on to occur. -/
theorem exists_applyBulk {I : α → Prop} (hop : op.Carries I P) (hI : ∀ d ∈ c.docs, I d)
    (h : ∃ d ∈ c.docs, P d) : ∃ d ∈ (c.applyBulk pick op).2.docs, P d := by
  cases op with
  | one op => exact exists_apply hop hI h
  | updateMany filter update =>
    simp only [applyBulk]
    split
    · obtain ⟨d, hd, hP⟩ := h
      refine ⟨_, List.mem_map_of_mem hd, ?_⟩
      split
      next hf => exact hop d (hI d hd) hP hf
      next => exact hP
    · exact h
  | deleteMany filter =>
    obtain ⟨d, hd, hP⟩ := h
    have hkept : (!filter d) := by rw [hop d (hI d hd) hP, Bool.not_false]
    exact ⟨d, mem_filter.mpr ⟨hd, hkept⟩, hP⟩

end Collection

/-! ## Documents in their places -/

section Places

variable {β : Type} {R R' : β → α → Prop} {bs : List β} {docs : List α}

theorem forall₂_updateFirst (h : List.Forall₂ R bs docs)
    (hupdate : ∀ b d, R b d → filter d → R b (update d)) :
    List.Forall₂ R bs (updateFirst filter update docs) := by
  induction h with
  | nil => exact .nil
  | @cons b d bs docs hd hdocs ih =>
    unfold updateFirst
    split
    next hf => exact .cons (hupdate b d hd hf) hdocs
    next => exact .cons hd ih

theorem forall₂_updateAll (h : List.Forall₂ R bs docs)
    (hupdate : ∀ b d, R b d → R' b (if filter d then update d else d)) :
    List.Forall₂ R' bs (updateAll filter update docs) := by
  unfold updateAll
  rw [forall₂_map_right_iff]
  exact h.imp hupdate

/-- The operation leaves every document in its place, and `R` to what stands opposite it. -/
def BulkOperation.KeepsPlaces (R : β → α → Prop) : BulkOperation α → Prop
  | .one (.findOne _) => True
  | .one (.find _) => True
  | .one (.updateOne filter update) => ∀ b d, R b d → filter d = true → R b (update d)
  | .updateMany filter update => ∀ b d, R b d → filter d = true → R b (update d)
  | _ => False

theorem Collection.forall₂_applyBulk [DecidableEq α] {c : Collection α keys} {pick : Nat}
    {op : BulkOperation α} (hop : op.KeepsPlaces R) (h : List.Forall₂ R bs c.docs) :
    List.Forall₂ R bs (c.applyBulk pick op).2.docs := by
  cases op with
  | one op =>
    cases op with
    | findOne | find => exact h
    | updateOne filter update =>
      simp only [applyBulk, apply]
      split
      · exact h
      next d _ =>
        rcases put_docs c pick (updateFirst filter update c.docs) (update d)
          (UpdateResult.mk 1 (if update d = d then 0 else 1)) with hdocs | hdocs
        · rw [hdocs]
          exact forall₂_updateFirst h hop
        · rw [hdocs]
          exact h
    | insertOne | insertMany | replaceOne | upsertOne => exact hop.elim
  | updateMany filter update =>
    simp only [applyBulk]
    split
    · apply forall₂_updateAll h
      intro b d hd
      split
      next hf => exact hop b d hd hf
      next => exact hd
    · exact h
  | deleteMany filter => exact hop.elim

end Places

/-! ## Looking documents up after an operation -/

section Lookup

variable {κ : Type} [DecidableEq κ] {I : Identity α κ keys} {c c' : Collection α keys} {a : κ}

theorem Collection.lookup_congr (h : c'.docs = c.docs) : c'.lookup I a = c.lookup I a := by
  simp only [Collection.lookup, h]

theorem Collection.lookup_of_updateAll (hdocs : c'.docs = updateAll filter update c.docs)
    (hupdate : ∀ d, I.id (update d) = I.id d) :
    c'.lookup I a = (c.lookup I a).map fun d ↦ if filter d then update d else d := by
  have hid : ∀ d, I.id (if filter d then update d else d) = I.id d := by
    intro d
    split
    · exact hupdate d
    · rfl
  simp only [Collection.lookup, hdocs, updateAll, find?_map, Function.comp_def, hid]

theorem Collection.lookup_of_remove (hdocs : c'.docs = c.docs.filter fun d ↦ !filter d) :
    c'.lookup I a = (c.lookup I a).filter fun d ↦ !filter d := by
  apply Option.ext
  intro d
  rw [Collection.lookup_eq_some, Option.filter_eq_some_iff, Collection.lookup_eq_some, hdocs,
    mem_filter]
  exact and_right_comm

theorem Collection.lookup_of_append (hdocs : c'.docs = c.docs ++ [d]) :
    c'.lookup I a = if I.id d = a then some d else c.lookup I a := by
  have hmem : d ∈ c'.docs := by simp [hdocs]
  apply Option.ext
  intro d'
  split
  next hid =>
    rw [Collection.lookup_eq_some, Option.some.injEq]
    constructor
    · rintro ⟨hd', hid'⟩
      exact Collection.eq_of_mem_of_id I hmem hd' (hid.trans hid'.symm)
    · rintro rfl
      exact ⟨hmem, hid⟩
  next hid =>
    rw [Collection.lookup_eq_some, Collection.lookup_eq_some, hdocs, mem_append,
      mem_singleton]
    constructor
    · rintro ⟨hd' | rfl, hid'⟩
      · exact ⟨hd', hid'⟩
      · exact absurd hid' hid
    · exact fun ⟨hd', hid'⟩ ↦ ⟨.inl hd', hid'⟩

/-- A document that could be added has an identity of its own. -/
theorem Collection.lookup_of_unique (hdocs : c'.docs = c.docs ++ [d]) :
    c.lookup I (I.id d) = none := by
  rw [Option.eq_none_iff_forall_not_mem]
  intro d' hd'
  obtain ⟨hmem, hid⟩ := Collection.lookup_eq_some.mp hd'
  have hids := c'.ids_nodup I
  rw [hdocs, map_append, nodup_append'] at hids
  exact hids.2.2 (List.mem_map_of_mem hmem) (by simp [hid])

end Lookup

end DocumentStore
