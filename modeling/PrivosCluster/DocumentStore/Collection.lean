import Mathlib.Data.List.Nodup

/-!
# Document collections with unique indexes

A collection is a list of documents in natural order whose unique index entries are pairwise
distinct. Each operation reads or writes at most one document at a time, and is refused when
it would give two documents the same entry of a unique index.
-/

namespace DocumentStore

open List

/-- The entry a document has in one unique index: the indexed fields and their values. -/
structure IndexKey where
  fields : List String
  values : List String
deriving DecidableEq

/-- Documents in natural order, with no index entry occurring twice. -/
structure Collection (α : Type) (keys : α → List IndexKey) where
  docs : List α
  unique : (docs.flatMap keys).Nodup

structure UpdateResult where
  matchedCount : Nat
  modifiedCount : Nat

inductive WriteError where
  | duplicateKey (fields : List String)
  | emptyBatch

inductive Operation (α : Type) where
  | findOne (filter : α → Bool)
  | find (filter : α → Bool)
  | updateOne (filter : α → Bool) (update : α → α)
  /-- An update with `$setOnInsert` and `upsert`: `fresh` is inserted when nothing matches. -/
  | upsertOne (filter : α → Bool) (update : α → α) (fresh : α)
  | insertOne (doc : α)
  | insertMany (docs : List α)
  | replaceOne (filter : α → Bool) (replacement : α)

@[reducible] def Operation.Answer {α : Type} : Operation α → Type
  | .findOne _ => Option α
  | .find _ => List α
  | .updateOne _ _ => UpdateResult
  | .upsertOne _ _ _ => UpdateResult
  | .insertOne _ => Unit
  | .insertMany _ => Unit
  | .replaceOne _ _ => UpdateResult

variable {α κ : Type} {keys : α → List IndexKey}

/-- The first matching document is updated in place. -/
def updateFirst (filter : α → Bool) (update : α → α) : List α → List α
  | [] => []
  | d :: ds => if filter d then update d :: ds else d :: updateFirst filter update ds

variable {update : α → α} {filter : α → Bool} {ds : List α}

theorem updateFirst_of_forall_not (h : ∀ d ∈ ds, filter d = false) :
    updateFirst filter update ds = ds := by
  induction ds with
  | nil => rfl
  | cons d ds ih =>
    simp only [mem_cons, forall_eq_or_imp] at h
    simp [updateFirst, h.1, ih h.2]

variable {d : α} {β : Type} {p : α → Bool} {docs : List α} {P : α → Prop}

theorem mem_updateFirst (h : d ∈ updateFirst filter update ds) :
    d ∈ ds ∨ ∃ d₀ ∈ ds, filter d₀ ∧ d = update d₀ := by
  induction ds with
  | nil => cases h
  | cons d' ds ih =>
    unfold updateFirst at h
    split at h
    next hf =>
      obtain rfl | h := mem_cons.mp h
      · exact .inr ⟨d', by simp, hf, rfl⟩
      · exact .inl (mem_cons_of_mem _ h)
    · obtain rfl | h := mem_cons.mp h
      · exact .inl (mem_cons_self)
      · obtain h | ⟨d₀, hd₀, hf, rfl⟩ := ih h
        · exact .inl (mem_cons_of_mem _ h)
        · exact .inr ⟨d₀, mem_cons_of_mem _ hd₀, hf, rfl⟩

theorem map_updateFirst {g : α → β} (h : ∀ d, g (update d) = g d) :
    (updateFirst filter update ds).map g = ds.map g := by
  induction ds with
  | nil => rfl
  | cons d ds ih =>
    unfold updateFirst
    split
    · simp [h]
    · simp [ih]

/-- A test that the update does not decide otherwise has the same answer after it. -/
theorem any_updateFirst (h : ∀ d ∈ ds, filter d → p (update d) = p d) :
    (updateFirst filter update ds).any p = ds.any p := by
  induction ds with
  | nil => rfl
  | cons d ds ih =>
    simp only [mem_cons, forall_eq_or_imp] at h
    unfold updateFirst
    split
    next hf => simp [h.1 hf]
    · simp [ih h.2]

theorem mem_updateFirst_of_not (hd : d ∈ ds) (hf : filter d = false) :
    d ∈ updateFirst filter update ds := by
  induction ds with
  | nil => cases hd
  | cons d' ds ih =>
    unfold updateFirst
    obtain rfl | hd := mem_cons.mp hd
    · simp [hf]
    · split
      · exact mem_cons_of_mem _ hd
      · exact mem_cons_of_mem _ (ih hd)

theorem mem_updateFirst_or (hd : d ∈ ds) :
    d ∈ updateFirst filter update ds ∨
      filter d ∧ update d ∈ updateFirst filter update ds := by
  induction ds with
  | nil => cases hd
  | cons d' ds ih =>
    unfold updateFirst
    split
    next hf =>
      obtain rfl | hd := mem_cons.mp hd
      · exact .inr ⟨hf, mem_cons_self⟩
      · exact .inl (mem_cons_of_mem _ hd)
    · obtain rfl | hd := mem_cons.mp hd
      · exact .inl mem_cons_self
      · obtain h | ⟨hf, h⟩ := ih hd
        · exact .inl (mem_cons_of_mem _ h)
        · exact .inr ⟨hf, mem_cons_of_mem _ h⟩

theorem update_mem_updateFirst (h : ds.find? filter = some d) :
    update d ∈ updateFirst filter update ds := by
  induction ds with
  | nil => cases h
  | cons d' ds ih =>
    unfold updateFirst
    split
    next hf =>
      rw [find?_cons_of_pos hf] at h
      rw [Option.some.inj h]
      exact mem_cons_self
    next hf =>
      rw [find?_cons_of_neg hf] at h
      exact mem_cons_of_mem _ (ih h)

theorem updateFirst_eq_map {id : α → κ} {a : κ} (hids : (ds.map id).Nodup)
    (hfilter : ∀ d, filter d → id d = a) :
    updateFirst filter update ds = ds.map fun d ↦ if filter d then update d else d := by
  induction ds with
  | nil => rfl
  | cons d ds ih =>
    simp only [map_cons, nodup_cons, List.mem_map, not_exists, not_and] at hids
    unfold updateFirst
    split
    next hf =>
      have hrest : ∀ d' ∈ ds, filter d' = false := fun d' hd' ↦ by
        by_contra hd'f
        exact hids.1 d' hd' ((hfilter d' (by simpa using hd'f)).trans (hfilter d hf).symm)
      have hmap : ds.map (fun d ↦ if filter d then update d else d) = ds := by
        conv_rhs => rw [← List.map_id ds]
        exact map_congr_left fun d' hd' ↦ by simp [hrest d' hd']
      simp [hf, hmap]
    next hf => simp [hf, ih hids.2]

namespace Collection

/-- The index a new version of the collection would break, as the duplicate key error names it. -/
def clash (keys : α → List IndexKey) (pick : Nat) (docs : List α) (changed : α) : WriteError :=
  let clashing := (keys changed).filter fun k ↦ 1 < (docs.flatMap keys).count k
  match clashing[pick]? <|> clashing.head? with
  | some k => .duplicateKey k.fields
  | none => .duplicateKey []

/-- Write a new version of the documents, unless it breaks a unique index. -/
def put {β : Type} (c : Collection α keys) (pick : Nat) (docs : List α) (changed : α) (answer : β) :
    Except WriteError β × Collection α keys :=
  if h : (docs.flatMap keys).Nodup then (.ok answer, ⟨docs, h⟩)
  else (.error (clash keys pick docs changed), c)

/-- An ordered batch: the documents before the first refused one are kept. -/
def insertAll (pick : Nat) : List α → Collection α keys → Except WriteError Unit × Collection α keys
  | [], c => (.ok (), c)
  | d :: ds, c =>
    match c.put pick (c.docs ++ [d]) d () with
    | (.ok _, c') => insertAll pick ds c'
    | (.error e, c') => (.error e, c')

variable [DecidableEq α]

/-- The effect of an operation; `pick` says which index is reported when several would break. -/
def apply (pick : Nat) (c : Collection α keys) :
    (op : Operation α) → Except WriteError op.Answer × Collection α keys
  | .findOne filter => (.ok (c.docs.find? filter), c)
  | .find filter => (.ok (c.docs.filter filter), c)
  | .updateOne filter update =>
    match c.docs.find? filter with
    | none => (.ok ⟨0, 0⟩, c)
    | some d => c.put pick (updateFirst filter update c.docs) (update d)
        ⟨1, if update d = d then 0 else 1⟩
  | .upsertOne filter update fresh =>
    match c.docs.find? filter with
    | none => c.put pick (c.docs ++ [fresh]) fresh ⟨0, 0⟩
    | some d => c.put pick (updateFirst filter update c.docs) (update d)
        ⟨1, if update d = d then 0 else 1⟩
  | .insertOne doc => c.put pick (c.docs ++ [doc]) doc ()
  | .insertMany docs => if docs.isEmpty then (.error .emptyBatch, c) else c.insertAll pick docs
  | .replaceOne filter replacement =>
    match c.docs.find? filter with
    | none => (.ok ⟨0, 0⟩, c)
    | some d => c.put pick (updateFirst filter (fun _ ↦ replacement) c.docs) replacement
        ⟨1, if replacement = d then 0 else 1⟩

end Collection

def Operation.IsRead : Operation α → Prop
  | .findOne _ => True
  | .find _ => True
  | _ => False

/-- The operation may change the document `d` it finds. -/
def Operation.Selects (d : α) : Operation α → Prop
  | .updateOne filter _ => filter d = true
  | .upsertOne filter _ _ => filter d = true
  | .replaceOne filter _ => filter d = true
  | _ => False

/-- The operation may leave `d` in a collection with documents `docs`. -/
def Operation.Writes (docs : List α) (d : α) : Operation α → Prop
  | .updateOne filter update => ∃ d₀ ∈ docs, filter d₀ = true ∧ d = update d₀
  | .upsertOne filter update fresh =>
    (∃ d₀ ∈ docs, filter d₀ = true ∧ d = update d₀) ∨ (∀ d₀ ∈ docs, filter d₀ = false) ∧ d = fresh
  | .insertOne doc => d = doc
  | .insertMany docs => d ∈ docs
  | .replaceOne filter replacement => (∃ d₀ ∈ docs, filter d₀ = true) ∧ d = replacement
  | _ => False

/-- Whatever the operation writes satisfies `P`, when every document does. -/
def Operation.Respects (P : α → Prop) : Operation α → Prop
  | .updateOne filter update => ∀ d, P d → filter d = true → P (update d)
  | .upsertOne filter update fresh => (∀ d, P d → filter d = true → P (update d)) ∧ P fresh
  | .insertOne doc => P doc
  | .insertMany docs => ∀ d ∈ docs, P d
  | .replaceOne filter replacement => (∃ d, P d ∧ filter d = true) → P replacement
  | _ => True

/-- A document with `P` keeps it, when every document satisfies `I`. -/
def Operation.Carries (I P : α → Prop) : Operation α → Prop
  | .updateOne filter update => ∀ d, I d → P d → filter d = true → P (update d)
  | .upsertOne filter update _ => ∀ d, I d → P d → filter d = true → P (update d)
  | .replaceOne filter replacement => ∀ d, I d → P d → filter d = true → P replacement
  | _ => True

namespace Collection

variable {c : Collection α keys} {pick : Nat}

theorem put_docs (c : Collection α keys) (pick : Nat) (docs : List α) (changed : α) (answer : β) :
    (c.put pick docs changed answer).2.docs = docs ∨
      (c.put pick docs changed answer).2.docs = c.docs := by
  unfold put
  split <;> simp

theorem mem_put {changed : α} {answer : β} (h : d ∈ (c.put pick docs changed answer).2.docs) :
    d ∈ docs ∨ d ∈ c.docs := by
  rcases put_docs c pick docs changed answer with hd | hd <;> rw [hd] at h <;> simp [h]

theorem mem_put_of_mem {changed : α} {answer : β} (hdocs : d ∈ docs) (hc : d ∈ c.docs) :
    d ∈ (c.put pick docs changed answer).2.docs := by
  rcases put_docs c pick docs changed answer with hd | hd <;> rw [hd] <;> assumption

theorem mem_insertAll {ds : List α} (h : d ∈ (c.insertAll pick ds).2.docs) :
    d ∈ c.docs ∨ d ∈ ds := by
  induction ds generalizing c with
  | nil => exact .inl h
  | cons x ds ih =>
    have hput (c' : Collection α keys) (r : Except WriteError Unit)
        (hc' : c.put pick (c.docs ++ [x]) x () = (r, c')) (hd : d ∈ c'.docs) :
        d ∈ c.docs ∨ d ∈ x :: ds := by
      have hdocs : d ∈ (c.put pick (c.docs ++ [x]) x ()).2.docs := by rwa [hc']
      have := mem_put hdocs
      simp only [mem_append, mem_cons] at this ⊢
      tauto
    unfold insertAll at h
    split at h
    next c' heq =>
      obtain h | h := ih h
      · exact hput c' _ heq h
      · exact .inr (mem_cons_of_mem _ h)
    next c' heq => exact hput c' _ heq h

theorem mem_insertAll_of_mem {ds : List α} (hd : d ∈ c.docs) :
    d ∈ (c.insertAll pick ds).2.docs := by
  induction ds generalizing c with
  | nil => exact hd
  | cons x ds ih =>
    have hput : d ∈ (c.put pick (c.docs ++ [x]) x ()).2.docs :=
      mem_put_of_mem (mem_append_left _ hd) hd
    unfold insertAll
    split
    next c' heq =>
      rw [heq] at hput
      exact ih hput
    next c' heq => rwa [heq] at hput

variable [DecidableEq α]

variable {op : Operation α}

theorem apply_of_isRead (hop : op.IsRead) : (c.apply pick op).2 = c := by
  cases op <;> first | rfl | exact hop.elim

/-- A document found after an operation was there before, or the operation wrote it. -/
theorem mem_apply (h : d ∈ (c.apply pick op).2.docs) : d ∈ c.docs ∨ op.Writes c.docs d := by
  cases op with
  | findOne | find => exact .inl h
  | insertOne doc =>
    have := mem_put h
    simp only [mem_append, mem_singleton] at this
    tauto
  | insertMany docs =>
    simp only [apply] at h
    split at h
    · exact .inl h
    · exact mem_insertAll h
  | updateOne filter update =>
    simp only [apply] at h
    split at h
    · exact .inl h
    · exact (mem_put h).elim mem_updateFirst .inl
  | replaceOne filter replacement =>
    simp only [apply] at h
    split at h
    · exact .inl h
    · obtain h | h := mem_put h
      · exact (mem_updateFirst h).imp_right fun ⟨d₀, hd₀, hf, hd⟩ ↦ ⟨⟨d₀, hd₀, hf⟩, hd⟩
      · exact .inl h
  | upsertOne filter update fresh =>
    simp only [apply] at h
    split at h
    next hnone =>
      have hnone' : ∀ d₀ ∈ c.docs, filter d₀ = false := by simpa using hnone
      obtain h | h := mem_put h
      · obtain h | h := mem_append.mp h
        · exact .inl h
        · exact .inr (.inr ⟨hnone', by simpa using h⟩)
      · exact .inl h
    · obtain h | h := mem_put h
      · exact (mem_updateFirst h).imp_right .inl
      · exact .inl h

/-- An operation leaves alone what it does not select. -/
theorem mem_apply_of_not_selects (hd : d ∈ c.docs) (hop : ¬ op.Selects d) :
    d ∈ (c.apply pick op).2.docs := by
  have hselect {filter : α → Bool} (h : ¬ filter d) : filter d = false := by simpa using h
  cases op with
  | findOne | find => exact hd
  | insertOne doc => exact mem_put_of_mem (mem_append_left _ hd) hd
  | insertMany docs =>
    simp only [apply]
    split
    · exact hd
    · exact mem_insertAll_of_mem hd
  | updateOne | replaceOne =>
    simp only [apply]
    split
    · exact hd
    · exact mem_put_of_mem (mem_updateFirst_of_not hd (hselect hop)) hd
  | upsertOne =>
    simp only [apply]
    split
    · exact mem_put_of_mem (mem_append_left _ hd) hd
    · exact mem_put_of_mem (mem_updateFirst_of_not hd (hselect hop)) hd

/-- What all documents satisfy they go on to satisfy. -/
theorem forall_apply (hop : op.Respects P) (h : ∀ d ∈ c.docs, P d) :
    ∀ d ∈ (c.apply pick op).2.docs, P d := by
  intro d hd
  obtain hd | hd := mem_apply hd
  · exact h d hd
  · cases op with
    | findOne | find => exact hd.elim
    | insertOne doc => exact hd ▸ hop
    | insertMany docs => exact hop d hd
    | updateOne filter update =>
      obtain ⟨d₀, hd₀, hf, rfl⟩ := hd
      exact hop d₀ (h d₀ hd₀) hf
    | replaceOne filter replacement =>
      obtain ⟨⟨d₀, hd₀, hf⟩, rfl⟩ := hd
      exact hop ⟨d₀, h d₀ hd₀, hf⟩
    | upsertOne filter update fresh =>
      obtain ⟨d₀, hd₀, hf, rfl⟩ | ⟨-, rfl⟩ := hd
      · exact hop.1 d₀ (h d₀ hd₀) hf
      · exact hop.2

/-- A kind of document that occurs goes on to occur. -/
theorem exists_apply {I : α → Prop} (hop : op.Carries I P) (hI : ∀ d ∈ c.docs, I d)
    (h : ∃ d ∈ c.docs, P d) : ∃ d ∈ (c.apply pick op).2.docs, P d := by
  obtain ⟨d, hd, hP⟩ := h
  have hput {docs : List α} {changed : α} {β : Type} {answer : β} {P : α → Prop}
      (hold : ∃ d ∈ c.docs, P d) (hnew : ∃ d ∈ docs, P d) :
      ∃ d ∈ (c.put pick docs changed answer).2.docs, P d := by
    rcases put_docs c pick docs changed answer with hdocs | hdocs <;> rw [hdocs] <;> assumption
  have hupdate {filter : α → Bool} {update : α → α}
      (hcarries : ∀ d, I d → P d → filter d → P (update d)) :
      ∃ d ∈ updateFirst filter update c.docs, P d := by
    have hcases : d ∈ updateFirst filter update c.docs ∨
        filter d ∧ update d ∈ updateFirst filter update c.docs := mem_updateFirst_or hd
    obtain h | ⟨hf, h⟩ := hcases
    · exact ⟨d, h, hP⟩
    · exact ⟨update d, h, hcarries d (hI d hd) hP hf⟩
  cases op with
  | findOne | find => exact ⟨d, hd, hP⟩
  | insertOne doc => exact ⟨d, mem_apply_of_not_selects hd id, hP⟩
  | insertMany docs => exact ⟨d, mem_apply_of_not_selects hd id, hP⟩
  | updateOne filter update =>
    simp only [apply]
    split
    · exact ⟨d, hd, hP⟩
    · exact hput ⟨d, hd, hP⟩ (hupdate hop)
  | upsertOne filter update fresh =>
    simp only [apply]
    split
    · exact hput ⟨d, hd, hP⟩ ⟨d, mem_append_left _ hd, hP⟩
    · exact hput ⟨d, hd, hP⟩ (hupdate hop)
  | replaceOne filter replacement =>
    simp only [apply]
    split
    · exact ⟨d, hd, hP⟩
    · exact hput ⟨d, hd, hP⟩ (hupdate hop)

/-- An update that keeps the index entries of the documents it may change is never refused. -/
theorem apply_updateOne (c : Collection α keys) (pick : Nat) {filter : α → Bool} {update : α → α}
    (hkeys : ∀ d, filter d → keys (update d) = keys d) :
    ∃ c', c'.docs = updateFirst filter update c.docs ∧
      c.apply pick (.updateOne filter update) =
        (.ok ((c.docs.find? filter).elim ⟨0, 0⟩ fun d ↦ ⟨1, if update d = d then 0 else 1⟩), c') := by
  cases hfind : c.docs.find? filter with
  | none =>
    have hnone : ∀ d ∈ c.docs, filter d = false := by simpa using hfind
    exact ⟨c, (updateFirst_of_forall_not hnone).symm, by simp [apply, hfind]⟩
  | some d =>
    have hflat (ds : List α) : (updateFirst filter update ds).flatMap keys = ds.flatMap keys := by
      induction ds with
      | nil => rfl
      | cons d ds ih =>
        unfold updateFirst
        split
        next hf => simp [hkeys d hf]
        · simp [ih]
    have h : ((updateFirst filter update c.docs).flatMap keys).Nodup := by
      rw [hflat]
      exact c.unique
    exact ⟨⟨_, h⟩, rfl, by simp [apply, hfind, put, h]⟩

/-- Insert-if-absent by the only index entry of a document is never refused. -/
theorem apply_upsertOne_isOk {key : α → IndexKey} (c : Collection α keys) (pick : Nat)
    {filter : α → Bool} {fresh : α} (hkeys : ∀ d, keys d = [key d])
    (hfilter : ∀ d, filter d ↔ key d = key fresh) :
    ∃ answer, (c.apply pick (.upsertOne filter id fresh)).1 = .ok answer := by
  simp only [apply]
  split
  next hnone =>
    have h : ((c.docs ++ [fresh]).flatMap keys).Nodup := by
      rw [flatMap_append, nodup_append]
      refine ⟨c.unique, by simp [hkeys], fun k hk k' hk' heq ↦ ?_⟩
      obtain ⟨d, hd, hkd⟩ := mem_flatMap.mp hk
      rw [hkeys, mem_singleton] at hkd
      have hk'fresh : k' = key fresh := by simpa [hkeys] using hk'
      have hmatch : filter d := (hfilter d).mpr (by rw [← hkd, heq, hk'fresh])
      exact find?_eq_none.mp hnone d hd hmatch
    exact ⟨⟨0, 0⟩, by rw [put, dif_pos h]⟩
  next d hfound =>
    have hsame : updateFirst filter id c.docs = c.docs := by
      have hmap : (updateFirst filter id c.docs).map id = c.docs.map id :=
        map_updateFirst fun _ ↦ rfl
      rwa [List.map_id, List.map_id] at hmap
    have h : ((updateFirst filter id c.docs).flatMap keys).Nodup := by
      rw [hsame]
      exact c.unique
    exact ⟨_, by rw [put, dif_pos h]⟩

end Collection

/-! ## Looking a document up by its identity -/

/-- An identity of the documents that a unique index keeps apart. -/
structure Identity (α κ : Type) (keys : α → List IndexKey) where
  id : α → κ
  key : κ → IndexKey
  indexed : ∀ d, key (id d) ∈ keys d

section Lookup

variable {I : Identity α κ keys} {c : Collection α keys} {a b : κ}

theorem Collection.ids_nodup (I : Identity α κ keys) (c : Collection α keys) :
    (c.docs.map I.id).Nodup := by
  have h := (nodup_flatMap.mp c.unique).2
  rw [List.Nodup, pairwise_map]
  refine h.imp fun {d d'} hdisjoint heq ↦ ?_
  exact hdisjoint (I.indexed d) (by rw [heq]; exact I.indexed d')

variable [DecidableEq κ]

def Collection.lookup (I : Identity α κ keys) (c : Collection α keys) (a : κ) : Option α :=
  c.docs.find? fun d ↦ I.id d = a

theorem find?_id_eq_some {id : α → κ} {ds : List α} (hids : (ds.map id).Nodup) :
    ds.find? (fun d ↦ id d = a) = some d ↔ d ∈ ds ∧ id d = a := by
  induction ds with
  | nil => simp
  | cons x ds ih =>
    simp only [map_cons, nodup_cons, List.mem_map, not_exists, not_and] at hids
    by_cases hx : id x = a
    · simp only [find?_cons, hx, decide_true, Option.some.injEq, mem_cons]
      refine ⟨fun h ↦ h ▸ ⟨.inl rfl, hx⟩, fun ⟨h, hd⟩ ↦ ?_⟩
      obtain rfl | h := h
      · rfl
      · exact absurd (hd.trans hx.symm) (hids.1 d h)
    · simp only [find?_cons, hx, decide_false, ih hids.2, mem_cons]
      refine ⟨fun ⟨h, hd⟩ ↦ ⟨.inr h, hd⟩, fun ⟨h, hd⟩ ↦ ?_⟩
      obtain rfl | h := h
      · exact absurd hd hx
      · exact ⟨h, hd⟩

theorem Collection.lookup_eq_some : c.lookup I a = some d ↔ d ∈ c.docs ∧ I.id d = a :=
  find?_id_eq_some (c.ids_nodup I)

theorem Collection.eq_of_mem_of_id (I : Identity α κ keys) {d' : α} (hd : d ∈ c.docs)
    (hd' : d' ∈ c.docs) (h : I.id d = I.id d') : d = d' := by
  have h₁ : c.lookup I (I.id d') = some d := Collection.lookup_eq_some.mpr ⟨hd, h⟩
  have h₂ : c.lookup I (I.id d') = some d' := Collection.lookup_eq_some.mpr ⟨hd', rfl⟩
  simpa using h₁.symm.trans h₂

/-- A query that names an identity finds the document of that identity or nothing. -/
theorem Collection.find?_docs {filter : α → Bool} (hfilter : ∀ d, filter d → I.id d = a) :
    c.docs.find? filter = (c.lookup I a).filter filter := by
  cases hlookup : c.lookup I a with
  | none =>
    have hnone : ∀ d ∈ c.docs, I.id d ≠ a := by
      simpa [Collection.lookup] using hlookup
    simp only [Option.filter_none, find?_eq_none, Bool.not_eq_true]
    exact fun d h ↦ by_contra fun hf ↦ hnone d h (hfilter d (by simpa using hf))
  | some d =>
    obtain ⟨hmem, hid⟩ := Collection.lookup_eq_some.mp hlookup
    have honly : ∀ d' ∈ c.docs, filter d' → d' = d := fun d' h' hf ↦
      Collection.eq_of_mem_of_id I h' hmem ((hfilter d' hf).trans hid.symm)
    by_cases hf : filter d
    · rw [Option.filter_some_pos hf]
      cases hfind : c.docs.find? filter with
      | none => exact absurd hf (by simpa using find?_eq_none.mp hfind d hmem)
      | some d' =>
        rw [honly d' (mem_of_find?_eq_some hfind) (find?_some hfind)]
    · rw [Option.filter_some_neg (by simpa using hf), find?_eq_none]
      intro d' h' hf'
      rw [honly d' h' hf'] at hf'
      exact hf hf'

/-- A test of the document that a query naming an identity finds. -/
theorem Collection.any_find?_docs {filter : α → Bool} (hfilter : ∀ d, filter d → I.id d = a) :
    (c.docs.find? filter).any p = c.docs.any fun d ↦ filter d && p d := by
  rw [Bool.eq_iff_iff, Option.any_eq_true, List.any_eq_true]
  constructor
  · rintro ⟨d, hfind, hp⟩
    exact ⟨d, mem_of_find?_eq_some hfind, by simp [find?_some hfind, hp]⟩
  · rintro ⟨d, hd, hdp⟩
    rw [Bool.and_eq_true] at hdp
    cases hfind : c.docs.find? filter with
    | none => exact absurd hdp.1 (find?_eq_none.mp hfind d hd)
    | some d' =>
      have hd' := mem_of_find?_eq_some hfind
      have hsame : d' = d := Collection.eq_of_mem_of_id I hd' hd
        ((hfilter d' (find?_some hfind)).trans (hfilter d hdp.1).symm)
      exact ⟨d', rfl, hsame ▸ hdp.2⟩

/-- An update addressed to one identity changes the document of that identity and no other. -/
theorem Collection.lookup_of_updateFirst {c' : Collection α keys} {filter : α → Bool}
    {update : α → α} (hdocs : c'.docs = updateFirst filter update c.docs)
    (hfilter : ∀ d, filter d → I.id d = a) (hupdate : ∀ d, I.id (update d) = I.id d) :
    c'.lookup I b = (c.lookup I b).map fun d ↦ if filter d then update d else d := by
  have hid : ∀ d, I.id (if filter d then update d else d) = I.id d := fun d ↦ by
    split
    · exact hupdate d
    · rfl
  rw [updateFirst_eq_map (c.ids_nodup I) hfilter] at hdocs
  simp only [Collection.lookup, hdocs, find?_map, Function.comp_def, hid]

end Lookup

end DocumentStore
