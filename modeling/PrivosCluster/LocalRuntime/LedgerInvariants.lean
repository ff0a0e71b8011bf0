import Mathlib.Data.List.Infix
import PrivosCluster.LocalRuntime.LedgerHistory

/-!
# Records and slots of the ledger

The fields of a record grow with its state and stay once they are set, and a slot always names a
record of its generation. The slot follows the most recent activation as long as no runtime is
removed from under it while its generation still has another one.
-/

namespace PrivosCluster.LocalRuntime

open List Option

variable {r r' : RuntimeRecord} {call : LedgerCall} {state' : LedgerFile}

namespace RuntimeRecord

/-- The fields that the state of a record needs. -/
structure Complete (r : RuntimeRecord) : Prop where
  ready : RuntimeState.ready ≤ r.state → r.containerId.isSome ∧ r.readyResponseJson.isSome ∧
    r.driverEvidenceJson.isSome
  activating : RuntimeState.activating ≤ r.state → r.activationRequestHash.isSome ∧
    r.activationRequestJson.isSome ∧ r.activeContainerSpecHash.isSome ∧
    r.activationClaimedAt.isSome ∧ r.activeReplicaId.isSome
  active : r.state = .active → r.activeContainerReadyAt.isSome ∧ r.activeResponseJson.isSome ∧
    r.activationEvidenceJson.isSome

/-- The fields that are not set before their state. -/
structure Unset (r : RuntimeRecord) : Prop where
  ready : r.state = .claimed → r.readyResponseJson = none ∧ r.driverEvidenceJson = none
  activating : r.state ≤ .ready → r.activationRequestHash = none ∧ r.activeReplicaId = none
  active : r.state ≤ .activating → r.activeResponseJson = none ∧ r.activationEvidenceJson = none

/-- A later version of a record: its state is not behind, and what was set is kept. -/
structure Follows (r r' : RuntimeRecord) : Prop where
  generationId : r'.generationId = r.generationId
  runtimeId : r'.runtimeId = r.runtimeId
  state : r.state ≤ r'.state
  replicaId : r'.replicaId = r.replicaId
  activeReplicaId : r.activeReplicaId.isSome → r'.activeReplicaId = r.activeReplicaId
  readyResponseJson : r.readyResponseJson.isSome → r'.readyResponseJson = r.readyResponseJson
  driverEvidenceJson : r.driverEvidenceJson.isSome → r'.driverEvidenceJson = r.driverEvidenceJson
  activationRequestHash :
    r.activationRequestHash.isSome → r'.activationRequestHash = r.activationRequestHash
  activeResponseJson : r.activeResponseJson.isSome → r'.activeResponseJson = r.activeResponseJson
  activationEvidenceJson :
    r.activationEvidenceJson.isSome → r'.activationEvidenceJson = r.activationEvidenceJson

theorem Follows.refl (r : RuntimeRecord) : r.Follows r where
  generationId := rfl
  runtimeId := rfl
  state := Nat.le_refl _
  replicaId := rfl
  activeReplicaId := fun _ ↦ rfl
  readyResponseJson := fun _ ↦ rfl
  driverEvidenceJson := fun _ ↦ rfl
  activationRequestHash := fun _ ↦ rfl
  activeResponseJson := fun _ ↦ rfl
  activationEvidenceJson := fun _ ↦ rfl

theorem kept_trans {α : Type} {a b c : Option α} (hab : a.isSome → b = a) (hbc : b.isSome → c = b)
    (ha : a.isSome) : c = a := by
  have hb := hab ha
  rw [← hb]
  apply hbc
  rw [hb]
  exact ha

theorem Follows.trans {r'' : RuntimeRecord} (h : r.Follows r') (h' : r'.Follows r'') :
    r.Follows r'' where
  generationId := h'.generationId.trans h.generationId
  runtimeId := h'.runtimeId.trans h.runtimeId
  state := Nat.le_trans h.state h'.state
  replicaId := h'.replicaId.trans h.replicaId
  activeReplicaId := kept_trans h.activeReplicaId h'.activeReplicaId
  readyResponseJson := kept_trans h.readyResponseJson h'.readyResponseJson
  driverEvidenceJson := kept_trans h.driverEvidenceJson h'.driverEvidenceJson
  activationRequestHash := kept_trans h.activationRequestHash h'.activationRequestHash
  activeResponseJson := kept_trans h.activeResponseJson h'.activeResponseJson
  activationEvidenceJson := kept_trans h.activationEvidenceJson h'.activationEvidenceJson

/-- What every record satisfies. -/
structure Sound (r : RuntimeRecord) : Prop where
  replicaId : r.replicaId ≠ ""
  complete : r.Complete
  unset : r.Unset

end RuntimeRecord

open RuntimeState in
theorem Advance.sound (advance : Advance r r') (h : r.Sound) : r'.Sound := by
  obtain ⟨hreplica, ⟨hready, hactivating, hactive⟩, ⟨huready, huactivating, huactive⟩⟩ := h
  cases advance with
  | container _ _ =>
    exact ⟨hreplica, ⟨fun hs ↦ ⟨rfl, (hready hs).2⟩, hactivating, hactive⟩,
      ⟨huready, huactivating, huactive⟩⟩
  | ready _ _ _ hclaimed hcontainer =>
    have hle : r.state ≤ .ready ∧ r.state ≤ .activating := by simp [hclaimed, le_iff, rank]
    exact ⟨hreplica, ⟨fun _ ↦ ⟨hcontainer, rfl, rfl⟩, fun hs ↦ by simp [le_iff, rank] at hs,
      fun hs ↦ by simp at hs⟩, ⟨fun hs ↦ by simp at hs, fun _ ↦ huactivating hle.1,
      fun _ ↦ huactive hle.2⟩⟩
  | activating _ _ hstate =>
    have hle : RuntimeState.ready ≤ r.state ∧ r.state ≤ .activating := by
      simp [hstate, le_iff, rank]
    exact ⟨hreplica, ⟨fun _ ↦ hready hle.1, fun _ ↦ ⟨rfl, rfl, rfl, rfl, rfl⟩,
      fun hs ↦ by simp at hs⟩, ⟨fun hs ↦ by simp at hs, fun hs ↦ by simp [le_iff, rank] at hs,
      fun _ ↦ huactive hle.2⟩⟩
  | registered _ =>
    exact ⟨hreplica, ⟨hready, hactivating, hactive⟩, ⟨huready, huactivating, huactive⟩⟩
  | containerReady _ _ =>
    exact ⟨hreplica, ⟨hready, hactivating, fun hs ↦ ⟨rfl, (hactive hs).2⟩⟩,
      ⟨huready, huactivating, huactive⟩⟩

open RuntimeState in
theorem Advance.follows (advance : Advance r r') (h : r.Sound) : r.Follows r' := by
  cases advance with
  | container _ _ => exact { RuntimeRecord.Follows.refl r with }
  | ready _ _ _ hclaimed _ =>
    obtain ⟨hresponse, hevidence⟩ := h.unset.ready hclaimed
    exact { RuntimeRecord.Follows.refl r with
      state := by simp [hclaimed, le_iff, rank]
      readyResponseJson := fun hs ↦ by simp [hresponse] at hs
      driverEvidenceJson := fun hs ↦ by simp [hevidence] at hs }
  | activating _ _ hstate =>
    obtain ⟨hhash, hreplica⟩ := h.unset.activating (by simp [hstate, le_iff])
    exact { RuntimeRecord.Follows.refl r with
      state := by simp [hstate, le_iff, rank]
      activeReplicaId := fun hs ↦ by simp [hreplica] at hs
      activationRequestHash := fun hs ↦ by simp [hhash] at hs }
  | registered _ => exact { RuntimeRecord.Follows.refl r with }
  | containerReady _ _ => exact { RuntimeRecord.Follows.refl r with }

theorem Advance.active_iff (advance : Advance r r') : r'.state = .active ↔ r.state = .active := by
  cases advance with
  | container _ _ => exact Iff.rfl
  | ready _ _ _ hclaimed _ => simp [hclaimed]
  | activating _ _ hstate => simp [hstate]
  | registered _ => exact Iff.rfl
  | containerReady _ _ => exact Iff.rfl

namespace RuntimeRecord

theorem supervised_iff : r.supervised ↔ r.state = .activating ∧
    r.containerId.isSome ∧ r.activeContainerSpecHash.isSome ∧ r.activationClaimedAt.isSome ∧
    r.activeContainerReadyAt.isSome := by
  simp [supervised, and_assoc]

open RuntimeState in
theorem Sound.activated (h : r.Sound) (input : ActiveInput) (supervised : r.supervised = true) :
    (r.activated input).Sound := by
  obtain ⟨hstate, _, _, _, hreadyAt⟩ := supervised_iff.mp supervised
  have hle : RuntimeState.ready ≤ r.state ∧ RuntimeState.activating ≤ r.state := by
    simp [hstate, le_iff, rank]
  exact ⟨h.replicaId, ⟨fun _ ↦ h.complete.ready hle.1, fun _ ↦ h.complete.activating hle.2,
    fun _ ↦ ⟨hreadyAt, rfl, rfl⟩⟩, ⟨fun hs ↦ by simp [RuntimeRecord.activated] at hs,
    fun hs ↦ by simp [RuntimeRecord.activated, le_iff, rank] at hs,
    fun hs ↦ by simp [RuntimeRecord.activated, le_iff, rank] at hs⟩⟩

open RuntimeState in
theorem Sound.follows_activated (h : r.Sound) (input : ActiveInput)
    (supervised : r.supervised = true) : r.Follows (r.activated input) := by
  have hstate := (supervised_iff.mp supervised).1
  obtain ⟨hresponse, hevidence⟩ := h.unset.active (by simp [hstate, le_iff])
  exact { Follows.refl r with
    state := by simp [RuntimeRecord.activated, hstate, le_iff, rank]
    activeResponseJson := fun hs ↦ by simp [hresponse] at hs
    activationEvidenceJson := fun hs ↦ by simp [hevidence] at hs }

open RuntimeState in
theorem sound_claimed (input : ClaimInput) {replicaId : String} (minted : replicaId ≠ "") :
    (input.record replicaId).Sound :=
  ⟨minted, ⟨fun hs ↦ by simp [ClaimInput.record, le_iff, rank] at hs,
    fun hs ↦ by simp [ClaimInput.record, le_iff, rank] at hs,
    fun hs ↦ by simp [ClaimInput.record] at hs⟩,
    ⟨fun _ ↦ ⟨rfl, rfl⟩, fun _ ↦ ⟨rfl, rfl⟩, fun _ ↦ ⟨rfl, rfl⟩⟩⟩

end RuntimeRecord

/-! ## The invariant of the file -/

namespace LedgerFile

/-- Records are sound and stand under their id, and slots name records of their generation. -/
structure Sound (state : LedgerFile) : Prop where
  record {runtimeId : String} {r : RuntimeRecord} :
    state.record runtimeId = some r → r.Sound ∧ r.runtimeId = runtimeId
  slot {generationId runtimeId : String} : state.slot generationId = some runtimeId →
    ∃ r, state.record runtimeId = some r ∧ r.generationId = generationId

theorem sound_empty : emptyLedger.Sound where
  record h := by simp at h
  slot h := by simp at h

theorem Sound.clean {state : LedgerFile} (h : state.Sound) : state.dirty = false := by
  unfold dirty
  rw [List.any_eq_false]
  intro e he
  have hlookup : state.record e.1 = some e.2 :=
    AList.mem_lookup_iff.mpr he
  simpa using (h.record hlookup).1.replicaId

variable {state : LedgerFile}

variable {runtimeId : String}

theorem Sound.put (h : state.Sound) (recorded : state.record runtimeId = some r) (sound : r'.Sound)
    (follows : r.Follows r') :
    (state.put runtimeId r').Sound where
  record {id q} hq := by
    rw [record_put] at hq
    split at hq
    next hid =>
      obtain rfl := some.inj hq
      exact ⟨sound, follows.runtimeId.trans ((h.record recorded).2.trans hid.symm)⟩
    next => exact h.record hq
  slot {generationId id} hslot := by
    obtain ⟨q, hq, hgeneration⟩ := h.slot hslot
    by_cases hid : id = runtimeId
    · rw [hid, recorded] at hq
      obtain rfl := some.inj hq
      exact ⟨r', by simp [hid], follows.generationId.trans hgeneration⟩
    · exact ⟨q, by simp [hid, hq], hgeneration⟩

theorem Sound.pointTo {generationId : String} (h : state.Sound)
    (recorded : state.record runtimeId = some r) (generation : r.generationId = generationId) :
    (state.pointTo generationId runtimeId).Sound where
  record hq := h.record hq
  slot {other id} hslot := by
    rw [slot_pointTo] at hslot
    split at hslot
    next hother =>
      obtain rfl := some.inj hslot
      exact ⟨r, recorded, generation.trans hother.symm⟩
    next => exact h.slot hslot

theorem Sound.putNew (h : state.Sound) (absent : state.record runtimeId = none) (sound : r.Sound)
    (named : r.runtimeId = runtimeId) :
    (state.put runtimeId r).Sound where
  record {id q} hq := by
    rw [record_put] at hq
    split at hq
    next hid =>
      obtain rfl := some.inj hq
      exact ⟨sound, named.trans hid.symm⟩
    next => exact h.record hq
  slot {generationId id} hslot := by
    obtain ⟨q, hq, hgeneration⟩ := h.slot hslot
    have hid : id ≠ runtimeId := by
      intro hid
      rw [hid, absent] at hq
      cases hq
    exact ⟨q, by simp [hid, hq], hgeneration⟩

theorem Sound.removed (h : state.Sound) (recorded : state.record runtimeId = some r) :
    ((state.dropRecord runtimeId).freeSlot r.generationId runtimeId).Sound where
  record {id q} hq := by
    have hq' : (state.dropRecord runtimeId).record id = some q := by
      unfold freeSlot at hq
      split at hq <;> exact hq
    rw [record_dropRecord] at hq'
    split at hq'
    · cases hq'
    · exact h.record hq'
  slot {generationId id} hslot := by
    -- the slot of the removed runtime's generation is dropped exactly when it names the runtime
    have hkept : state.slot generationId = some id ∧ id ≠ runtimeId := by
      unfold freeSlot at hslot
      split at hslot
      next hnamed =>
        rw [slot_dropSlot] at hslot
        split at hslot
        · cases hslot
        next hother =>
          apply And.intro hslot
          rintro rfl
          obtain ⟨q, hq, hgeneration⟩ := h.slot hslot
          rw [recorded] at hq
          obtain rfl := some.inj hq
          exact hother hgeneration.symm
      next hnamed =>
        apply And.intro hslot
        rintro rfl
        obtain ⟨q, hq, hgeneration⟩ := h.slot hslot
        rw [recorded] at hq
        obtain rfl := some.inj hq
        rw [hgeneration] at hnamed
        exact hnamed hslot
    obtain ⟨q, hq, hgeneration⟩ := h.slot hkept.1
    refine ⟨q, ?_, hgeneration⟩
    unfold freeSlot
    split <;> simp [hkept.2, hq]

end LedgerFile

variable {state : LedgerFile}

theorem Change.sound (change : Change state call state') (h : state.Sound) : state'.Sound := by
  cases change with
  | claimed input replicaId minted absent =>
    have hput : (state.put input.runtimeId (input.record replicaId)).Sound :=
      h.putNew absent (RuntimeRecord.sound_claimed input minted) rfl
    unfold LedgerFile.claimSlot
    split
    · exact hput.pointTo (r := input.record replicaId) (by simp) rfl
    · exact hput
  | advanced _ r r' recorded advance =>
    have hr := (h.record recorded).1
    exact h.put recorded (advance.sound hr) (advance.follows hr)
  | activated input r recorded supervised =>
    obtain ⟨hr, hnamed⟩ := h.record recorded
    have hput := h.put recorded (hr.activated input supervised)
      (hr.follows_activated input supervised)
    rw [hnamed]
    exact hput.pointTo (r := r.activated input) (by simp) rfl
  | removed runtimeId r recorded => exact h.removed recorded

/-- A record that a change leaves in the file follows from the one before. -/
theorem Change.follows (change : Change state call state') (h : state.Sound) {runtimeId : String}
    (before : state.record runtimeId = some r) (after : state'.record runtimeId = some r') :
    r.Follows r' := by
  cases change with
  | claimed input replicaId minted absent =>
    have hid : runtimeId ≠ input.runtimeId := by
      rintro rfl
      rw [absent] at before
      cases before
    have hafter : (state.put input.runtimeId (input.record replicaId)).record runtimeId =
        some r' := by
      unfold LedgerFile.claimSlot at after
      split at after <;> exact after
    simp only [LedgerFile.record_put, hid, if_false, before] at hafter
    rw [some.inj hafter]
    exact .refl _
  | advanced _ q q' recorded advance =>
    rw [LedgerFile.record_put] at after
    split at after
    next hid =>
      rw [hid, recorded] at before
      obtain rfl := some.inj before
      obtain rfl := some.inj after
      exact advance.follows (h.record recorded).1
    next =>
      rw [before] at after
      rw [some.inj after]
      exact .refl _
  | activated input q recorded supervised =>
    simp only [LedgerFile.record_pointTo, LedgerFile.record_put] at after
    split at after
    next hid =>
      rw [hid, recorded] at before
      obtain rfl := some.inj before
      obtain rfl := some.inj after
      exact (h.record recorded).1.follows_activated input supervised
    next =>
      rw [before] at after
      rw [some.inj after]
      exact .refl _
  | removed id q recorded =>
    have hafter : (state.dropRecord id).record runtimeId = some r' := by
      unfold LedgerFile.freeSlot at after
      split at after <;> exact after
    rw [LedgerFile.record_dropRecord] at hafter
    split at hafter
    · cases hafter
    · rw [before] at hafter
      rw [some.inj hafter]
      exact .refl _

/-! ## Sequences of calls -/

/-- A call with the platform it runs on. -/
abbrev LedgerRequest := LedgerPlatform × LedgerCall

def serve (request : LedgerRequest) (storage : LedgerStorage) :
    Except DriverError Unit × LedgerStorage :=
  (request.2.program request.1).exec storage

/-- The file after a sequence of calls, some of which may throw. -/
def serveAll (requests : List LedgerRequest) (storage : LedgerStorage) : LedgerStorage :=
  requests.foldl (fun storage request ↦ (serve request storage).2) storage

/-- The ledger that a call finds in the file. -/
def LedgerStorage.ledger : LedgerStorage → LedgerFile
  | .stored ledger => ledger
  | _ => emptyLedger

/-- The ledger after a sequence of calls on a new file. -/
def ledgerAfter (requests : List LedgerRequest) : LedgerFile :=
  (serveAll requests (openLedger .missing)).ledger

theorem serve_effect (h : state.Sound) (request : LedgerRequest) :
    Effect state request.2 (serve request (.stored state)) :=
  request.2.effect request.1 h.clean

theorem serve_sound (h : state.Sound) (request : LedgerRequest) :
    ∃ state', (serve request (.stored state)).2 = .stored state' ∧ state'.Sound ∧
      (state' = state ∨ Change state request.2 state') := by
  have heffect := serve_effect h request
  generalize serve request (.stored state) = result at heffect
  cases heffect with
  | unchanged outcome => exact ⟨state, rfl, h, .inl rfl⟩
  | changed _ state' change => exact ⟨state', rfl, change.sound h, .inr change⟩

theorem serveAll_sound (h : state.Sound) (requests : List LedgerRequest) :
    ∃ state', serveAll requests (.stored state) = .stored state' ∧ state'.Sound := by
  induction requests generalizing state with
  | nil => exact ⟨state, rfl, h⟩
  | cons request requests ih =>
    obtain ⟨state', hserve, hsound, _⟩ := serve_sound h request
    have hcons : serveAll (request :: requests) (.stored state) =
        serveAll requests (serve request (.stored state)).2 := rfl
    rw [hcons, hserve]
    exact ih hsound

theorem serveAll_append (earlier later : List LedgerRequest) (storage : LedgerStorage) :
    serveAll (earlier ++ later) storage = serveAll later (serveAll earlier storage) :=
  foldl_append

/-- The file after any sequence of calls is a sound ledger. -/
theorem ledgerAfter_sound (requests : List LedgerRequest) :
    serveAll requests (openLedger .missing) = .stored (ledgerAfter requests) ∧
      (ledgerAfter requests).Sound := by
  obtain ⟨state, hstate, hsound⟩ := serveAll_sound LedgerFile.sound_empty requests
  have hledger : ledgerAfter requests = state := by
    exact congrArg LedgerStorage.ledger hstate
  rw [hledger]
  exact ⟨hstate, hsound⟩

theorem ledgerAfter_append_singleton (requests : List LedgerRequest) (request : LedgerRequest) :
    ledgerAfter (requests ++ [request]) =
      (serve request (.stored (ledgerAfter requests))).2.ledger := by
  unfold ledgerAfter
  rw [serveAll_append, (ledgerAfter_sound requests).1]
  rfl

/-- One more call changes nothing or makes one change. -/
theorem ledgerAfter_step (requests : List LedgerRequest) (request : LedgerRequest) :
    ledgerAfter (requests ++ [request]) = ledgerAfter requests ∨
      Change (ledgerAfter requests) request.2 (ledgerAfter (requests ++ [request])) := by
  obtain ⟨state', hserve, _, hcases⟩ := serve_sound (ledgerAfter_sound requests).2 request
  rw [ledgerAfter_append_singleton, hserve]
  exact hcases

/-- A record that stays in the file throughout later calls follows from its earlier version. -/
theorem follows_of_kept (earlier later : List LedgerRequest) (runtimeId : String)
    (r : RuntimeRecord) (before : (ledgerAfter earlier).record runtimeId = some r)
    (kept : ∀ between, between <+: later →
      ((ledgerAfter (earlier ++ between)).record runtimeId).isSome) :
    ∃ r', (ledgerAfter (earlier ++ later)).record runtimeId = some r' ∧ r.Follows r' := by
  induction later using reverseRecOn with
  | nil => exact ⟨r, by simpa using before, .refl r⟩
  | append_singleton later request ih =>
    obtain ⟨q, hq, hfollows⟩ := ih fun between hbetween ↦
      kept between (hbetween.trans (prefix_append _ _))
    obtain ⟨r', hr'⟩ := Option.isSome_iff_exists.mp (kept _ (prefix_refl _))
    refine ⟨r', hr', ?_⟩
    rw [← append_assoc] at hr'
    obtain hsame | hchange := ledgerAfter_step (earlier ++ later) request
    · rw [hsame, hq] at hr'
      obtain rfl := some.inj hr'
      exact hfollows
    · exact hfollows.trans (hchange.follows (ledgerAfter_sound _).2 hq hr')

/-- Whatever the calls on a new file: the next call that throws leaves the file unchanged, the
records have the fields of their states and move only forward while they stay, and the slots name
records of their generations. -/
theorem ledger_keeps (requests : List LedgerRequest) :
    (∀ request error, (serve request (serveAll requests (openLedger .missing))).1 = .error error →
      (serve request (serveAll requests (openLedger .missing))).2 =
        serveAll requests (openLedger .missing)) ∧
    (∀ runtimeId r, (ledgerAfter requests).record runtimeId = some r → r.Complete) ∧
    (∀ later runtimeId r, (ledgerAfter requests).record runtimeId = some r →
      (∀ between, between <+: later →
        ((ledgerAfter (requests ++ between)).record runtimeId).isSome) →
      ∃ r', (ledgerAfter (requests ++ later)).record runtimeId = some r' ∧ r.Follows r') ∧
    (∀ generationId runtimeId, (ledgerAfter requests).slot generationId = some runtimeId →
      ∃ r, (ledgerAfter requests).record runtimeId = some r ∧ r.generationId = generationId) := by
  obtain ⟨hstored, hsound⟩ := ledgerAfter_sound requests
  refine ⟨?_, ?_, ?_, ?_⟩
  · intro request error hthrows
    rw [hstored] at hthrows ⊢
    have heffect := serve_effect hsound request
    generalize serve request (.stored (ledgerAfter requests)) = result at heffect hthrows
    cases heffect with
    | unchanged outcome => rfl
    | changed _ state' _ => cases hthrows
  · intro runtimeId r hr
    exact (hsound.record hr).1.complete
  · intro later runtimeId r
    exact follows_of_kept requests later runtimeId r
  · intro generationId runtimeId
    exact hsound.slot

/-! ## An example -/

namespace Sample

def platform : LedgerPlatform where
  parses text := text != ""
  randomUUID runtimeId := "replica of " ++ runtimeId
  nonempty runtimeId h := by
    have hlength := congrArg String.length h
    simp at hlength

def claimInput (runtimeId : String) (now : Int) : ClaimInput where
  generationId := "gen-1"
  installationId := "inst-1"
  generationNumber := 1
  requestHash := "hash-1"
  requestJson := "request"
  runtimeId := runtimeId
  artifactDigest := "sha256:a"
  imageManifestDigest := "sha256:b"
  imageConfigDigest := "sha256:c"
  containerSpecHash := "spec-1"
  now := now

def activationInput (runtimeId : String) (now : Int) : ActivationInput where
  runtimeId := runtimeId
  requestHash := "hash-1"
  activationRequestHash := "act-1"
  activationRequestJson := "activate"
  activeContainerSpecHash := "active-spec-1"
  now := now

def activeInput (runtimeId : String) (now : Int) : ActiveInput where
  runtimeId := runtimeId
  activationRequestHash := "act-1"
  activeResponseJson := "active"
  activationEvidenceJson := "evidence"
  now := now

/-- From the claim of a runtime until it is ACTIVE. -/
def activate (runtimeId : String) (now : Int) : List LedgerRequest :=
  [.claim (claimInput runtimeId now),
    .recordContainer runtimeId "hash-1" "container-1" (now + 1),
    .markReady runtimeId "hash-1" "ready" "driver" (now + 2),
    .claimActivation (activationInput runtimeId (now + 3)),
    .recordBrokerRegistered runtimeId (now + 3),
    .recordActiveContainerReady runtimeId "act-1" (now + 4),
    .markActive (activeInput runtimeId (now + 5))].map fun call ↦ (platform, call)

end Sample

/-- A runtime that became ACTIVE keeps its documents when it is asked for others. -/
theorem ledger_keeps_active :
    (serve (Sample.platform, .markReady "runtime-a" "hash-1" "other" "driver" 1010)
        (serveAll (Sample.activate "runtime-a" 1000) (openLedger .missing))).2 =
      serveAll (Sample.activate "runtime-a" 1000) (openLedger .missing) ∧
    ∃ r r', (ledgerAfter ((Sample.activate "runtime-a" 1000).take 3)).record "runtime-a" = some r ∧
      (ledgerAfter (Sample.activate "runtime-a" 1000)).record "runtime-a" = some r' ∧
      r.Follows r' ∧ r.Complete ∧ r'.Complete := by
  obtain ⟨hthrows, hcomplete', _, _⟩ := ledger_keeps (Sample.activate "runtime-a" 1000)
  obtain ⟨_, hcomplete, hfollows, _⟩ := ledger_keeps ((Sample.activate "runtime-a" 1000).take 3)
  constructor
  · exact hthrows _
      (.affinityConflict "Persisted READY evidence does not match this reconciliation.") rfl
  · have hkept : ∀ between ∈ ((Sample.activate "runtime-a" 1000).drop 3).inits,
        ((ledgerAfter ((Sample.activate "runtime-a" 1000).take 3 ++ between)).record
          "runtime-a").isSome = true := by
      decide +kernel
    have hready : ((ledgerAfter ((Sample.activate "runtime-a" 1000).take 3)).record
        "runtime-a").isSome = true := by
      decide +kernel
    obtain ⟨r, hr⟩ := Option.isSome_iff_exists.mp hready
    obtain ⟨r', hr', hle⟩ := hfollows ((Sample.activate "runtime-a" 1000).drop 3) "runtime-a" r hr
      fun between hbetween ↦ hkept between ((mem_inits _ _).mpr hbetween)
    exact ⟨r, r', hr, hr', hle, hcomplete _ r hr, hcomplete' _ r' hr'⟩

end PrivosCluster.LocalRuntime
