import PrivosCluster.LocalRuntime.LedgerInvariants

/-!
# The runtime that stands for a generation

The chronicle of a ledger remembers, for each generation, the runtimes that are left in the order
of their claims and those that became ACTIVE in the order of their activations. A removal that
frees the slot of a generation with another runtime left makes that generation unreachable.
-/

namespace PrivosCluster.LocalRuntime

open List LedgerFile Option

/-- The runtimes of each generation that are left, in order. -/
structure Chronicle where
  claims : String → List String
  activations : String → List String

namespace Chronicle

def empty : Chronicle := ⟨fun _ ↦ [], fun _ ↦ []⟩

def add (lists : String → List String) (generationId runtimeId : String) : String → List String :=
  fun generation ↦ if generation = generationId then lists generation ++ [runtimeId]
    else lists generation

def forget (lists : String → List String) (runtimeId : String) : String → List String :=
  fun generation ↦ (lists generation).filter (· ≠ runtimeId)

/-- What became of one runtime: it was claimed, removed or activated, or none of these. -/
def note (chronicle : Chronicle) (runtimeId : String) (before after : Option RuntimeRecord) :
    Chronicle :=
  match before, after with
  | none, some r => { chronicle with claims := add chronicle.claims r.generationId runtimeId }
  | some _, none => ⟨forget chronicle.claims runtimeId, forget chronicle.activations runtimeId⟩
  | some r, some r' =>
    if r.state ≠ .active ∧ r'.state = .active then
      { chronicle with activations := add chronicle.activations r'.generationId runtimeId }
    else chronicle
  | none, none => chronicle

/-- The runtime of a generation that was activated last, or else the one claimed first. -/
def standing (chronicle : Chronicle) (generationId : String) : Option String :=
  (chronicle.activations generationId).getLast?.or (chronicle.claims generationId).head?

end Chronicle

/-- The chronicle of a sequence of calls, from the files before and after each of them. -/
def chronicleFrom (storage : LedgerStorage) (chronicle : Chronicle) :
    List LedgerRequest → Chronicle
  | [] => chronicle
  | request :: requests =>
    let storage' := (serve request storage).2
    let runtimeId := request.2.runtimeId
    chronicleFrom storage'
      (chronicle.note runtimeId (storage.ledger.record runtimeId)
        (storage'.ledger.record runtimeId)) requests

def chronicle (requests : List LedgerRequest) : Chronicle :=
  chronicleFrom (openLedger .missing) .empty requests

/-- `get` answers with the runtime last activated or else first claimed, and with none only when
the generation has none. -/
def Represents (state : LedgerFile) (chronicle : Chronicle) : Prop :=
  ∀ generationId,
    state.get generationId = (chronicle.standing generationId).bind state.record ∧
    (state.get generationId = none →
      ∀ runtimeId r, state.record runtimeId = some r → r.generationId ≠ generationId)

/-- A call does not remove the runtime that the slot names while its generation has another. -/
def LedgerCall.Spares (state : LedgerFile) : LedgerCall → Prop
  | deleteByRuntimeId runtimeId =>
    ∀ r, state.record runtimeId = some r → state.slot r.generationId = some runtimeId →
      ∀ other r', state.record other = some r' → r'.generationId = r.generationId →
        other = runtimeId
  | _ => True

/-- A call does not claim the empty id, which stands for none in a slot. -/
def LedgerCall.Named : LedgerCall → Prop
  | claim input => input.runtimeId ≠ ""
  | _ => True

instance (call : LedgerCall) : Decidable call.Named := by
  cases call <;> unfold LedgerCall.Named <;> infer_instance

/-! ## The chronicle and the file -/

/-- The chronicle names the records of the file, and each slot is the standing runtime. -/
structure Chronicle.Agrees (chronicle : Chronicle) (state : LedgerFile) : Prop where
  claims (generationId runtimeId : String) : runtimeId ∈ chronicle.claims generationId ↔
    ∃ r, state.record runtimeId = some r ∧ r.generationId = generationId
  activations (generationId runtimeId : String) :
    runtimeId ∈ chronicle.activations generationId ↔
      ∃ r, state.record runtimeId = some r ∧ r.generationId = generationId ∧ r.state = .active
  slot (generationId : String) : state.slot generationId = chronicle.standing generationId
  nonempty (runtimeId : String) : (state.record runtimeId).isSome → runtimeId ≠ ""

variable {generation : String} {lists : String → List String} {r r' : RuntimeRecord}
  {ids : List String}

namespace Chronicle

theorem agrees_empty : Agrees .empty emptyLedger where
  claims _ _ := by simp [empty]
  activations _ _ := by simp [empty]
  slot _ := rfl
  nonempty _ h := by simp at h

variable {chronicle : Chronicle} {state : LedgerFile}

variable {runtimeId generationId : String}

theorem standing_mem (h : chronicle.standing generationId = some runtimeId) :
    runtimeId ∈ chronicle.activations generationId ∨ runtimeId ∈ chronicle.claims generationId := by
  unfold standing at h
  cases hlast : (chronicle.activations generationId).getLast? with
  | some id =>
    rw [hlast] at h
    obtain rfl := some.inj h
    exact .inl (mem_of_getLast? hlast)
  | none =>
    rw [hlast] at h
    exact .inr (mem_of_mem_head? h)

theorem Agrees.represents (h : chronicle.Agrees state) : Represents state chronicle := by
  intro generationId
  have hget : state.get generationId = (chronicle.standing generationId).bind state.record := by
    unfold LedgerFile.get
    rw [h.slot]
    cases hstanding : chronicle.standing generationId with
    | none => rfl
    | some runtimeId =>
      have hrecorded : ∃ r, state.record runtimeId = some r := by
        obtain hmem | hmem := standing_mem hstanding
        · obtain ⟨r, hr, _⟩ := (h.activations _ _).mp hmem
          exact ⟨r, hr⟩
        · obtain ⟨r, hr, _⟩ := (h.claims _ _).mp hmem
          exact ⟨r, hr⟩
      obtain ⟨r, hr⟩ := hrecorded
      have hne : runtimeId ≠ "" := h.nonempty runtimeId (by simp [hr])
      simp [hne]
  refine ⟨hget, ?_⟩
  intro hnone runtimeId r hr hgeneration
  have hclaimed : runtimeId ∈ chronicle.claims generationId :=
    (h.claims _ _).mpr ⟨r, hr, hgeneration⟩
  have hsome : ∃ id, chronicle.standing generationId = some id := by
    unfold standing
    cases (chronicle.activations generationId).getLast? with
    | some id => exact ⟨id, rfl⟩
    | none =>
      cases hlist : chronicle.claims generationId with
      | nil => simp [hlist] at hclaimed
      | cons id ids => exact ⟨id, rfl⟩
  obtain ⟨id, hid⟩ := hsome
  rw [hget, hid] at hnone
  obtain hmem | hmem := standing_mem hid
  · obtain ⟨q, hq, _⟩ := (h.activations _ _).mp hmem
    simp [hq] at hnone
  · obtain ⟨q, hq, _⟩ := (h.claims _ _).mp hmem
    simp [hq] at hnone

/-! ### One call -/

theorem Agrees.slot_ne_empty (h : chronicle.Agrees state)
    (named : state.slot generationId = some runtimeId) : runtimeId ≠ "" := by
  rw [h.slot] at named
  apply h.nonempty
  obtain hmem | hmem := standing_mem named
  · obtain ⟨r, hr, _⟩ := (h.activations _ _).mp hmem
    simp [hr]
  · obtain ⟨r, hr, _⟩ := (h.claims _ _).mp hmem
    simp [hr]

theorem note_self (runtimeId : String) (record : Option RuntimeRecord) :
    chronicle.note runtimeId record record = chronicle := by
  cases record with
  | none => rfl
  | some r => exact if_neg fun h ↦ h.1 h.2

theorem mem_add {id : String} :
    id ∈ add lists generationId runtimeId generation ↔
      id ∈ lists generation ∨ (generation = generationId ∧ id = runtimeId) := by
  unfold add
  split
  next h => simp [h]
  next h => simp [h]

theorem mem_forget {id : String} :
    id ∈ forget lists runtimeId generation ↔ id ∈ lists generation ∧ id ≠ runtimeId := by
  simp [forget]

theorem standing_claimed (generationId runtimeId generation : String) :
    (⟨add chronicle.claims generationId runtimeId, chronicle.activations⟩ : Chronicle).standing
        generation =
      if generation = generationId then (chronicle.standing generation).or (some runtimeId)
      else chronicle.standing generation := by
  by_cases h : generation = generationId
  · simp only [standing, add, h, if_true, head?_append, Option.or_assoc]
    rfl
  · simp only [standing, add, h, if_false]

theorem standing_activated (generationId runtimeId generation : String) :
    (⟨chronicle.claims, add chronicle.activations generationId runtimeId⟩ : Chronicle).standing
        generation =
      if generation = generationId then some runtimeId else chronicle.standing generation := by
  by_cases h : generation = generationId
  · simp [standing, add, h]
  · simp only [standing, add, h, if_false]

theorem Agrees.claimed (h : chronicle.Agrees state) {input : ClaimInput} {replicaId : String}
    (absent : state.record input.runtimeId = none) (named : input.runtimeId ≠ "") :
    (chronicle.note input.runtimeId none (some (input.record replicaId))).Agrees
      ((state.put input.runtimeId (input.record replicaId)).claimSlot input.generationId
        input.runtimeId) := by
  have hrecord : ∀ id, ((state.put input.runtimeId (input.record replicaId)).claimSlot
      input.generationId input.runtimeId).record id =
        if id = input.runtimeId then some (input.record replicaId) else state.record id := by
    unfold claimSlot
    split <;> simp
  have hold : ∀ generation id, (∃ r, state.record id = some r ∧ r.generationId = generation) →
      id ≠ input.runtimeId := by
    intro generation id hr hid
    obtain ⟨r, hr, _⟩ := hr
    rw [hid, absent] at hr
    cases hr
  constructor
  · intro generation id
    rw [hrecord]
    apply mem_add.trans
    rw [h.claims]
    constructor
    · intro hmem
      obtain hmem | ⟨hgeneration, hid⟩ := hmem
      · simpa [hold _ _ hmem] using hmem
      · exact ⟨input.record replicaId, by simp [hid], hgeneration.symm⟩
    · intro hmem
      obtain ⟨r, hr, hgeneration⟩ := hmem
      split at hr
      next hid =>
        obtain rfl := some.inj hr
        exact .inr ⟨hgeneration.symm, hid⟩
      next => exact .inl ⟨r, hr, hgeneration⟩
  · intro generation id
    rw [hrecord]
    apply (h.activations generation id).trans
    by_cases hid : id = input.runtimeId
    · simp [hid, absent, ClaimInput.record]
    · simp [hid]
  · intro generation
    apply Eq.trans _ (standing_claimed _ _ _).symm
    rw [← h.slot]
    unfold claimSlot
    by_cases hgeneration : generation = input.generationId
    · subst hgeneration
      cases hslot : state.slot input.generationId with
      | none => simp [hslot]
      | some id =>
        have hne : id ≠ "" := h.slot_ne_empty hslot
        simp [hslot, hne]
    · split <;> simp [hgeneration]
  · intro id hid
    rw [hrecord] at hid
    split at hid
    next heq => exact heq ▸ named
    next => exact h.nonempty id hid

theorem Agrees.advanced (h : chronicle.Agrees state) (recorded : state.record runtimeId = some r)
    (generation : r'.generationId = r.generationId)
    (active : r'.state = .active ↔ r.state = .active) :
    chronicle.Agrees (state.put runtimeId r') := by
  constructor
  · intro generationId id
    apply (h.claims generationId id).trans
    by_cases hid : id = runtimeId
    · simp [hid, recorded, generation]
    · simp [hid]
  · intro generationId id
    apply (h.activations generationId id).trans
    by_cases hid : id = runtimeId
    · simp [hid, recorded, generation, active]
    · simp [hid]
  · exact h.slot
  · intro id hid
    by_cases heq : id = runtimeId
    · exact h.nonempty id (by simp [heq, recorded])
    · exact h.nonempty id (by simpa [heq] using hid)

theorem Agrees.activated (h : chronicle.Agrees state) (recorded : state.record runtimeId = some r)
    (generation : r'.generationId = r.generationId) (active : r'.state = .active) :
    (⟨chronicle.claims, add chronicle.activations r.generationId runtimeId⟩ : Chronicle).Agrees
      ((state.put runtimeId r').pointTo r.generationId runtimeId) := by
  constructor
  · intro generationId id
    apply (h.claims generationId id).trans
    by_cases hid : id = runtimeId
    · simp [hid, recorded, generation]
    · simp [hid]
  · intro generationId id
    apply mem_add.trans
    rw [h.activations]
    by_cases hid : id = runtimeId
    · subst hid
      simp only [recorded, record_pointTo, LedgerFile.record_put, if_true]
      constructor
      · intro hmem
        obtain ⟨q, hq, hgeneration, _⟩ | ⟨hgeneration, _⟩ := hmem
        · obtain rfl := some.inj hq
          exact ⟨r', rfl, generation.trans hgeneration, active⟩
        · exact ⟨r', rfl, generation.trans hgeneration.symm, active⟩
      · intro hmem
        obtain ⟨q, hq, hgeneration, _⟩ := hmem
        obtain rfl := some.inj hq
        exact .inr ⟨hgeneration.symm.trans generation, trivial⟩
    · simp [hid]
  · intro generationId
    rw [standing_activated, ← h.slot]
    simp
  · intro id hid
    by_cases heq : id = runtimeId
    · exact h.nonempty id (by simp [heq, recorded])
    · exact h.nonempty id (by simpa [heq] using hid)

/-! ### Removal -/

theorem getLast?_filter_ne (h : ids.getLast? ≠ some runtimeId) :
    (ids.filter (· ≠ runtimeId)).getLast? = ids.getLast? := by
  cases ids using reverseRecOn with
  | nil => rfl
  | append_singleton ids id =>
    have hid : id ≠ runtimeId := by
      intro hid
      simp [hid] at h
    simp [filter_append, hid]

theorem head?_filter_ne (h : ids.head? ≠ some runtimeId) :
    (ids.filter (· ≠ runtimeId)).head? = ids.head? := by
  cases ids with
  | nil => rfl
  | cons id ids =>
    have hid : id ≠ runtimeId := by
      intro hid
      simp [hid] at h
    simp [hid]

theorem standing_forget_of_ne (h : chronicle.standing generationId ≠ some runtimeId) :
    (⟨forget chronicle.claims runtimeId, forget chronicle.activations runtimeId⟩ :
      Chronicle).standing generationId = chronicle.standing generationId := by
  simp only [standing, forget] at h ⊢
  cases hlast : (chronicle.activations generationId).getLast? with
  | some id =>
    have hne : (chronicle.activations generationId).getLast? ≠ some runtimeId := by
      rw [hlast] at h ⊢
      exact h
    rw [getLast?_filter_ne hne, hlast]
    rfl
  | none =>
    have hne : (chronicle.claims generationId).head? ≠ some runtimeId := by
      rw [hlast] at h
      exact h
    rw [head?_filter_ne hne, getLast?_filter_ne (by simp [hlast]), hlast]

/-- Nothing is left standing when the removed runtime was the only one of its generation. -/
theorem standing_forget_of_only (hclaims : ∀ id ∈ chronicle.claims generationId, id = runtimeId)
    (hactivations : ∀ id ∈ chronicle.activations generationId, id = runtimeId) :
    (⟨forget chronicle.claims runtimeId, forget chronicle.activations runtimeId⟩ :
      Chronicle).standing generationId = none := by
  have hnil : ∀ ids : List String, (∀ id ∈ ids, id = runtimeId) →
      ids.filter (· ≠ runtimeId) = [] := by
    simp
  simp only [standing, forget]
  rw [hnil _ hclaims, hnil _ hactivations]
  rfl

theorem Agrees.removed (h : chronicle.Agrees state) (sound : state.Sound)
    (recorded : state.record runtimeId = some r)
    (spares : (LedgerCall.deleteByRuntimeId runtimeId).Spares state) :
    (⟨forget chronicle.claims runtimeId, forget chronicle.activations runtimeId⟩ :
      Chronicle).Agrees ((state.dropRecord runtimeId).freeSlot r.generationId runtimeId) := by
  have hrecord : ∀ id, ((state.dropRecord runtimeId).freeSlot r.generationId runtimeId).record id =
      if id = runtimeId then none else state.record id := by
    unfold freeSlot
    split <;> simp
  constructor
  · intro generationId id
    rw [hrecord]
    apply mem_forget.trans
    rw [h.claims]
    by_cases hid : id = runtimeId <;> simp [hid]
  · intro generationId id
    rw [hrecord]
    apply mem_forget.trans
    rw [h.activations]
    by_cases hid : id = runtimeId <;> simp [hid]
  · intro generationId
    unfold freeSlot
    by_cases hnamed : state.slot generationId = some runtimeId
    · -- the slot names the removed runtime, so its generation has no other one
      obtain ⟨q, hq, hgeneration⟩ := sound.slot hnamed
      rw [recorded] at hq
      obtain rfl := some.inj hq
      subst hgeneration
      have honly := spares r recorded hnamed
      rw [standing_forget_of_only]
      · simp [hnamed]
      · intro id hid
        obtain ⟨q, hq, hgeneration⟩ := (h.claims _ _).mp hid
        exact honly id q hq hgeneration
      · intro id hid
        obtain ⟨q, hq, hgeneration, _⟩ := (h.activations _ _).mp hid
        exact honly id q hq hgeneration
    · rw [standing_forget_of_ne (by rwa [← h.slot]), ← h.slot]
      split
      next hslot =>
        have hne : generationId ≠ r.generationId := by
          rintro rfl
          exact hnamed hslot
        simp [hne]
      next => rfl
  · intro id hid
    rw [hrecord] at hid
    split at hid
    · simp at hid
    · exact h.nonempty id hid

/-- What a change leaves is what the chronicle notes. -/
theorem Agrees.change {call : LedgerCall} {state' : LedgerFile} (h : chronicle.Agrees state)
    (sound : state.Sound) (change : Change state call state') (spares : call.Spares state)
    (named : call.Named) :
    (chronicle.note call.runtimeId (state.record call.runtimeId)
      (state'.record call.runtimeId)).Agrees state' := by
  cases change with
  | claimed input replicaId minted absent =>
    have hafter : ((state.put input.runtimeId (input.record replicaId)).claimSlot
        input.generationId input.runtimeId).record input.runtimeId =
          some (input.record replicaId) := by
      unfold claimSlot
      split <;> simp
    simp only [LedgerCall.runtimeId, absent, hafter]
    exact h.claimed absent named
  | advanced _ r r' recorded advance =>
    have hfollows := advance.follows (sound.record recorded).1
    have hnote : chronicle.note call.runtimeId (some r) (some r') = chronicle := by
      apply if_neg
      intro hactivated
      exact hactivated.1 (advance.active_iff.mp hactivated.2)
    rw [recorded, LedgerFile.record_put, if_pos rfl, hnote]
    exact h.advanced recorded hfollows.generationId advance.active_iff
  | activated input r recorded supervised =>
    have hstate := (RuntimeRecord.supervised_iff.mp supervised).1
    have hnote : chronicle.note input.runtimeId (some r) (some (r.activated input)) =
        ⟨chronicle.claims, add chronicle.activations r.generationId input.runtimeId⟩ :=
      if_pos ⟨by simp [hstate], rfl⟩
    simp only [LedgerCall.runtimeId, record_pointTo, LedgerFile.record_put, if_true,
      recorded, hnote, (sound.record recorded).2]
    exact h.activated recorded rfl rfl
  | removed runtimeId r recorded =>
    have hafter : ((state.dropRecord runtimeId).freeSlot r.generationId runtimeId).record
        runtimeId = none := by
      unfold freeSlot
      split <;> simp
    simp only [LedgerCall.runtimeId, recorded, hafter]
    exact h.removed sound recorded spares

end Chronicle

/-! ## Sequences of calls -/

theorem chronicleFrom_append (earlier later : List LedgerRequest) (storage : LedgerStorage)
    (c : Chronicle) : chronicleFrom storage c (earlier ++ later) =
      chronicleFrom (serveAll earlier storage) (chronicleFrom storage c earlier) later := by
  induction earlier generalizing storage c with
  | nil => rfl
  | cons request earlier ih => exact ih _ _

theorem chronicle_append_singleton (requests : List LedgerRequest) (request : LedgerRequest) :
    chronicle (requests ++ [request]) = (chronicle requests).note request.2.runtimeId
      ((ledgerAfter requests).record request.2.runtimeId)
      ((ledgerAfter (requests ++ [request])).record request.2.runtimeId) := by
  unfold chronicle
  rw [chronicleFrom_append, (ledgerAfter_sound requests).1, ledgerAfter_append_singleton]
  rfl

theorem agrees_of_spares (requests : List LedgerRequest)
    (named : ∀ request ∈ requests, request.2.Named)
    (spares : ∀ earlier request later, requests = earlier ++ request :: later →
      request.2.Spares (ledgerAfter earlier)) :
    (chronicle requests).Agrees (ledgerAfter requests) := by
  induction requests using reverseRecOn with
  | nil => exact Chronicle.agrees_empty
  | append_singleton requests request ih =>
    have hearlier := ih (fun r hr ↦ named r (mem_append_left _ hr)) fun earlier r later h ↦
      spares earlier r (later ++ [request]) (by rw [h]; simp)
    have hspares := spares requests request [] rfl
    have hnamed := named request (by simp)
    rw [chronicle_append_singleton]
    obtain hsame | hchange := ledgerAfter_step requests request
    · rw [hsame, Chronicle.note_self]
      exact hearlier
    · exact hearlier.change (ledgerAfter_sound requests).2 hchange hspares hnamed

/-- A removal of a recorded runtime takes place. -/
theorem ledgerAfter_delete (requests : List LedgerRequest) (platform : LedgerPlatform)
    {runtimeId : String} (recorded : (ledgerAfter requests).record runtimeId = some r) :
    ledgerAfter (requests ++ [(platform, .deleteByRuntimeId runtimeId)]) =
      ((ledgerAfter requests).dropRecord runtimeId).freeSlot r.generationId runtimeId := by
  have hclean := (ledgerAfter_sound requests).2.clean
  rw [ledgerAfter_append_singleton]
  have hexec : (serve (platform, .deleteByRuntimeId runtimeId)
      (.stored (ledgerAfter requests))).2 = .stored
        (((ledgerAfter requests).dropRecord runtimeId).freeSlot r.generationId runtimeId) := by
    unfold serve LedgerCall.program ignore deleteByRuntimeId
    rw [exec_bind, exec_bind, exec_readLedger platform hclean]
    simp only [recorded]
    rfl
  rw [hexec]
  rfl

namespace Sample

/-- A runtime and its revision become ACTIVE, and the revision is removed. -/
def rolledBack : List LedgerRequest :=
  activate "runtime-a" 1000 ++ activate "runtime-b" 2000 ++
    [(platform, .deleteByRuntimeId "runtime-b")]

theorem rolledBack_leaves : (ledgerAfter rolledBack).get "gen-1" = none ∧
    ∃ r, (ledgerAfter rolledBack).record "runtime-a" = some r ∧ r.generationId = "gen-1" ∧
      r.state = .active := by
  have hnone : (ledgerAfter rolledBack).get "gen-1" = none := by decide +kernel
  have hactive : ((ledgerAfter rolledBack).record "runtime-a").any
      (fun r ↦ r.generationId == "gen-1" && r.state == .active) = true := by decide +kernel
  refine ⟨hnone, ?_⟩
  simpa [Option.any_eq_true] using hactive

end Sample

end PrivosCluster.LocalRuntime
