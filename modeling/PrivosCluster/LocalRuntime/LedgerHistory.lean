import PrivosCluster.LocalRuntime.Ledger

/-!
# What the ledger keeps

Every call leaves the file alone or makes one change: a record is claimed, moved on, activated or
removed. The invariant of records and slots follows change by change, and from it what holds after
every sequence of calls.
-/

namespace PrivosCluster.LocalRuntime

inductive LedgerCall where
  | claim (input : ClaimInput)
  | recordContainer (runtimeId requestHash containerId : String) (now : Int)
  | markReady (runtimeId requestHash readyResponseJson driverEvidenceJson : String) (now : Int)
  | claimActivation (input : ActivationInput)
  | recordBrokerRegistered (runtimeId : String) (now : Int)
  | recordActiveContainerReady (runtimeId activationRequestHash : String) (now : Int)
  | markActive (input : ActiveInput)
  | deleteByRuntimeId (runtimeId : String)

/-- A call whose answer is not used. -/
def ignore {α : Type} (p : LedgerM α) : LedgerM Unit := do
  let _ ← p
  pure ()

namespace LedgerCall

def program (platform : LedgerPlatform) : LedgerCall → LedgerM Unit
  | claim input => ignore (LocalRuntime.claim platform input)
  | recordContainer runtimeId requestHash containerId now =>
    ignore (LocalRuntime.recordContainer platform runtimeId requestHash containerId now)
  | markReady runtimeId requestHash readyResponseJson driverEvidenceJson now =>
    ignore (LocalRuntime.markReady platform runtimeId requestHash readyResponseJson
      driverEvidenceJson now)
  | claimActivation input => ignore (LocalRuntime.claimActivation platform input)
  | recordBrokerRegistered runtimeId now =>
    ignore (LocalRuntime.recordBrokerRegistered platform runtimeId now)
  | recordActiveContainerReady runtimeId activationRequestHash now =>
    ignore (LocalRuntime.recordActiveContainerReady platform runtimeId activationRequestHash now)
  | markActive input => ignore (LocalRuntime.markActive platform input)
  | deleteByRuntimeId runtimeId => ignore (LocalRuntime.deleteByRuntimeId platform runtimeId)

end LedgerCall

/-- The runtime that a call is about. -/
def LedgerCall.runtimeId : LedgerCall → String
  | claim input => input.runtimeId
  | recordContainer runtimeId _ _ _ => runtimeId
  | markReady runtimeId _ _ _ _ => runtimeId
  | claimActivation input => input.runtimeId
  | recordBrokerRegistered runtimeId _ => runtimeId
  | recordActiveContainerReady runtimeId _ _ => runtimeId
  | markActive input => input.runtimeId
  | deleteByRuntimeId runtimeId => runtimeId

/-! ## Changes -/

/-- How a call rewrites a record that it does not activate. -/
inductive Advance (r : RuntimeRecord) : RuntimeRecord → Prop where
  | container (containerId : String) (now : Int) :
      Advance r { r with containerId := some containerId, updatedAt := now }
  | ready (readyResponseJson driverEvidenceJson : String) (now : Int)
      (claimed : r.state = .claimed) (container : r.containerId.isSome) :
      Advance r { r with
        state := .ready
        readyResponseJson := some readyResponseJson
        driverEvidenceJson := some driverEvidenceJson
        updatedAt := now }
  | activating (input : ActivationInput) (replicaId : String) (ready : r.state = .ready) :
      Advance r { r with
        state := .activating
        activationRequestHash := some input.activationRequestHash
        activationRequestJson := some input.activationRequestJson
        activeContainerSpecHash := some input.activeContainerSpecHash
        activationClaimedAt := some input.now
        activeReplicaId := some replicaId
        updatedAt := input.now }
  | registered (now : Int) : Advance r { r with brokerRegisteredAt := some now, updatedAt := now }
  | containerReady (now : Int) (unset : r.activeContainerReadyAt.isNone) :
      Advance r { r with activeContainerReadyAt := some now, updatedAt := now }

def RuntimeRecord.activated (r : RuntimeRecord) (input : ActiveInput) : RuntimeRecord :=
  { r with
    state := .active
    activeResponseJson := some input.activeResponseJson
    activationEvidenceJson := some input.activationEvidenceJson
    updatedAt := input.now }

/-- The changes that a call makes to the file. -/
inductive Change (state : LedgerFile) : LedgerCall → LedgerFile → Prop where
  | claimed (input : ClaimInput) (replicaId : String) (minted : replicaId ≠ "")
      (absent : state.record input.runtimeId = none) :
      Change state (.claim input)
        ((state.put input.runtimeId (input.record replicaId)).claimSlot input.generationId
          input.runtimeId)
  | advanced (call : LedgerCall) (r r' : RuntimeRecord)
      (recorded : state.record call.runtimeId = some r) (advance : Advance r r') :
      Change state call (state.put call.runtimeId r')
  | activated (input : ActiveInput) (r : RuntimeRecord)
      (recorded : state.record input.runtimeId = some r) (supervised : r.supervised = true) :
      Change state (.markActive input)
        ((state.put input.runtimeId (r.activated input)).pointTo r.generationId r.runtimeId)
  | removed (runtimeId : String) (r : RuntimeRecord)
      (recorded : state.record runtimeId = some r) :
      Change state (.deleteByRuntimeId runtimeId)
        ((state.dropRecord runtimeId).freeSlot r.generationId runtimeId)

/-- A call ends without a change, or returns after one. -/
inductive Effect (state : LedgerFile) (call : LedgerCall) {α : Type} :
    Except DriverError α × LedgerStorage → Prop where
  | unchanged (outcome : Except DriverError α) : Effect state call (outcome, .stored state)
  | changed (a : α) (state' : LedgerFile) (change : Change state call state') :
      Effect state call (.ok a, .stored state')

/-! ## Running a call -/

variable {α β : Type}

/-- The outcome of a call and the file after it. -/
def LedgerM.exec (p : LedgerM α) (storage : LedgerStorage) :
    Except DriverError α × LedgerStorage :=
  p.run.run storage

theorem exec_bind (p : LedgerM α) (k : α → LedgerM β) (storage : LedgerStorage) :
    (p >>= k).exec storage = match p.exec storage with
      | (.ok a, storage') => (k a).exec storage'
      | (.error e, storage') => (.error e, storage') := by
  have h : (p >>= k).exec storage =
      (match p.exec storage with
        | (outcome, storage') => (ExceptT.bindCont k outcome).run storage') := rfl
  rw [h]
  rcases p.exec storage with ⟨_ | _, _⟩ <;> rfl

theorem exec_readLedger (platform : LedgerPlatform) {state : LedgerFile}
    (clean : state.dirty = false) :
    (readLedger platform).exec (.stored state) = (.ok state, .stored state) := by
  have h : (readLedger platform).exec (.stored state) =
      (if state.dirty then
        (do
          writeAtomic (state.backfillReplicaIds platform.randomUUID)
          pure (state.backfillReplicaIds platform.randomUUID) : LedgerM LedgerFile)
      else pure state).exec (.stored state) := rfl
  rw [h, clean]
  rfl

section Rules

variable {platform : LedgerPlatform} {state : LedgerFile} {call : LedgerCall}

theorem effect_readLedger (clean : state.dirty = false) {k : LedgerFile → LedgerM α}
    (h : Effect state call ((k state).exec (.stored state))) :
    Effect state call ((readLedger platform >>= k).exec (.stored state)) := by
  rw [exec_bind, exec_readLedger platform clean]
  exact h

theorem effect_throwUnless {condition : Bool} {error : DriverError} {k : Unit → LedgerM α}
    (h : condition → Effect state call ((k ()).exec (.stored state))) :
    Effect state call ((throwUnless condition error >>= k).exec (.stored state)) := by
  cases hc : condition with
  | true => exact h hc
  | false => exact .unchanged _

theorem effect_recordWhere {runtimeId : String} {accepts : RuntimeRecord → Bool}
    {error : DriverError} {k : RuntimeRecord → LedgerM α}
    (h : ∀ r, state.record runtimeId = some r → accepts r →
      Effect state call ((k r).exec (.stored state))) :
    Effect state call
      ((recordWhere state runtimeId accepts error >>= k).exec (.stored state)) := by
  unfold recordWhere
  cases hrecord : state.record runtimeId with
  | none => exact .unchanged _
  | some r =>
    cases haccepts : accepts r with
    | true =>
      simp only [haccepts]
      exact h r hrecord haccepts
    | false =>
      simp only [haccepts]
      exact .unchanged _

theorem effect_write {state' : LedgerFile} {a : α} (change : Change state call state') :
    Effect state call ((do writeAtomic state'; pure a : LedgerM α).exec (.stored state)) :=
  .changed a state' change

theorem effect_pure {a : α} : Effect state call ((pure a : LedgerM α).exec (.stored state)) :=
  .unchanged _

theorem effect_ignore {p : LedgerM α} (h : Effect state call (p.exec (.stored state))) :
    Effect state call ((ignore p).exec (.stored state)) := by
  unfold ignore
  rw [exec_bind]
  generalize p.exec (.stored state) = result at h
  cases h with
  | unchanged outcome => cases outcome <;> exact .unchanged _
  | changed a state' change => exact .changed _ _ change

end Rules

/-! ## The change of each call -/

section Calls

variable (platform : LedgerPlatform) {state : LedgerFile} (clean : state.dirty = false)
include clean

theorem effect_claim (input : ClaimInput) :
    Effect state (.claim input) ((claim platform input).exec (.stored state)) := by
  apply effect_readLedger clean
  cases hrecord : state.record input.runtimeId with
  | some existing =>
    exact effect_throwUnless fun _ ↦ effect_pure
  | none => exact effect_write (.claimed input _ (platform.nonempty _) hrecord)

theorem effect_recordContainer (runtimeId requestHash containerId : String) (now : Int) :
    Effect state (.recordContainer runtimeId requestHash containerId now)
      ((recordContainer platform runtimeId requestHash containerId now).exec (.stored state)) := by
  apply effect_readLedger clean
  apply effect_recordWhere
  intro r hrecord _
  exact effect_write (.advanced _ r _ hrecord (.container containerId now))

theorem effect_markReady (runtimeId requestHash readyResponseJson driverEvidenceJson : String)
    (now : Int) :
    Effect state (.markReady runtimeId requestHash readyResponseJson driverEvidenceJson now)
      ((markReady platform runtimeId requestHash readyResponseJson driverEvidenceJson now).exec
        (.stored state)) := by
  apply effect_throwUnless
  intro _
  apply effect_throwUnless
  intro _
  apply effect_readLedger clean
  apply effect_recordWhere
  intro r hrecord _
  by_cases hstate : r.state = .claimed
  · simp only [hstate, ne_eq, not_true_eq_false, if_false]
    apply effect_throwUnless
    intro hcontainer
    exact effect_write (.advanced _ r _ hrecord (.ready _ _ now hstate hcontainer))
  · simp only [hstate, ne_eq, not_false_eq_true, if_true]
    exact effect_throwUnless fun _ ↦ effect_pure

theorem effect_claimActivation (input : ActivationInput) :
    Effect state (.claimActivation input)
      ((claimActivation platform input).exec (.stored state)) := by
  apply effect_throwUnless
  intro _
  apply effect_readLedger clean
  apply effect_recordWhere
  intro r hrecord _
  cases hstate : r.state with
  | claimed => exact .unchanged _
  | ready =>
    apply effect_throwUnless
    intro _
    exact effect_write (.advanced _ r _ hrecord (.activating input _ hstate))
  | activating => exact effect_throwUnless fun _ ↦ effect_pure
  | active => exact effect_throwUnless fun _ ↦ effect_pure

theorem effect_recordBrokerRegistered (runtimeId : String) (now : Int) :
    Effect state (.recordBrokerRegistered runtimeId now)
      ((recordBrokerRegistered platform runtimeId now).exec (.stored state)) := by
  apply effect_readLedger clean
  apply effect_recordWhere
  intro r hrecord _
  exact effect_write (.advanced _ r _ hrecord (.registered now))

theorem effect_recordActiveContainerReady (runtimeId activationRequestHash : String) (now : Int) :
    Effect state (.recordActiveContainerReady runtimeId activationRequestHash now)
      ((recordActiveContainerReady platform runtimeId activationRequestHash now).exec
        (.stored state)) := by
  apply effect_readLedger clean
  apply effect_recordWhere
  intro r hrecord _
  by_cases hunset : r.activeContainerReadyAt.isNone
  · simp only [hunset, if_true]
    exact effect_write (.advanced _ r _ hrecord (.containerReady now hunset))
  · simp only [hunset]
    exact effect_pure

theorem effect_markActive (input : ActiveInput) :
    Effect state (.markActive input) ((markActive platform input).exec (.stored state)) := by
  apply effect_throwUnless
  intro _
  apply effect_throwUnless
  intro _
  apply effect_readLedger clean
  apply effect_recordWhere
  intro r hrecord _
  by_cases hstate : r.state = .active
  · simp only [hstate, if_true]
    exact effect_throwUnless fun _ ↦ effect_pure
  · simp only [hstate, if_false]
    apply effect_throwUnless
    intro hsupervised
    exact effect_write (.activated input r hrecord hsupervised)

theorem effect_deleteByRuntimeId (runtimeId : String) :
    Effect state (.deleteByRuntimeId runtimeId)
      ((deleteByRuntimeId platform runtimeId).exec (.stored state)) := by
  apply effect_readLedger clean
  cases hrecord : state.record runtimeId with
  | none => exact .unchanged _
  | some r => exact effect_write (.removed runtimeId r hrecord)

/-- Every call ends without a change or makes one of its own. -/
theorem LedgerCall.effect (call : LedgerCall) :
    Effect state call ((call.program platform).exec (.stored state)) := by
  cases call with
  | claim input => exact effect_ignore (effect_claim platform clean input)
  | recordContainer _ _ _ _ =>
    exact effect_ignore (effect_recordContainer platform clean _ _ _ _)
  | markReady _ _ _ _ _ => exact effect_ignore (effect_markReady platform clean _ _ _ _ _)
  | claimActivation input => exact effect_ignore (effect_claimActivation platform clean input)
  | recordBrokerRegistered _ _ =>
    exact effect_ignore (effect_recordBrokerRegistered platform clean _ _)
  | recordActiveContainerReady _ _ _ =>
    exact effect_ignore (effect_recordActiveContainerReady platform clean _ _ _)
  | markActive input => exact effect_ignore (effect_markActive platform clean input)
  | deleteByRuntimeId _ => exact effect_ignore (effect_deleteByRuntimeId platform clean _)

end Calls

end PrivosCluster.LocalRuntime
