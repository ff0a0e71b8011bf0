import PrivosCluster.AsyncProgram.RelyGuarantee
import PrivosCluster.LocalRuntime.DriverHost

/-!
# What is done under the lock of a runtime

A request takes one lock, claims no other runtime while it holds it, and gives it back. Which locks
a request holds is noted from its calls.
-/

namespace PrivosCluster.LocalRuntime

open AsyncProgram

/-- Calls that neither change the ledger nor take or give back a lock. -/
def ServiceCall.Quiet : ServiceCall → Prop
  | .lock _ => False
  | .unlock _ => False
  | .listRecords => False
  | .ledger _ => False
  | _ => True

/-- What is called under the lock of a runtime: no other runtime is claimed. -/
def ServiceCall.Inside (runtimeId : String) : ServiceCall → Prop
  | .lock _ => False
  | .unlock _ => False
  | .listRecords => False
  | .ledger (.claim input) => input.runtimeId = runtimeId
  | _ => True

open ServiceCall

variable {c : ServiceCall} {registerBroker : String → Served Unit} {runtimeId : String}

theorem ServiceCall.Quiet.inside (h : c.Quiet) (runtimeId : String) : c.Inside runtimeId := by
  cases c with
  | ledger call => exact h.elim
  | _ => exact h

/-! ## Containers -/

section

variable {P : ServiceCall → Prop}

theorem asks_awaitDocker {failure : String} (h : P c) : Asks P (awaitDocker c failure) := by
  apply Asks.tryCatch
  · exact Asks.ask h
  · exact fun _ ↦ trivial

theorem asks_serviceNow (h : P .clock) : Asks P serviceNow := by
  apply Asks.bind (Asks.ask h)
  intro now
  exact Asks.throwIf.bind fun _ ↦ trivial

theorem quiet_inspectByName (name : String) : Asks ServiceCall.Quiet (inspectByName name) :=
  asks_awaitDocker trivial

theorem quiet_stopAndRemove (container : ContainerInspect) :
    Asks ServiceCall.Quiet (stopAndRemove container) := by
  apply Asks.bind
  · exact Asks.onlyIf (asks_awaitDocker trivial)
  · exact fun _ ↦ asks_awaitDocker trivial

theorem quiet_removeContainerVerified (name : String) (policy : ContainerPolicy)
    (artifact : StagedArtifactRecord) : Asks ServiceCall.Quiet (removeContainerVerified name policy artifact) := by
  apply (quiet_inspectByName name).bind
  intro container
  apply Asks.forSome
  intro container
  apply Asks.ofExcept.bind
  intro _
  apply (quiet_stopAndRemove container).bind
  intro _
  apply (quiet_inspectByName name).bind
  exact fun _ ↦ Asks.throwIf

theorem quiet_requireContainer (name message : String) :
    Asks ServiceCall.Quiet (requireContainer name message) := by
  apply (quiet_inspectByName name).bind
  intro container
  cases container <;> trivial

theorem quiet_findOrCreateContainer (policy : ContainerPolicy) :
    Asks ServiceCall.Quiet (findOrCreateContainer policy) := by
  apply (quiet_inspectByName policy.runtimeId).bind
  intro container
  cases container with
  | some container => trivial
  | none =>
    apply Asks.bind
    · exact Asks.ask trivial
    · exact fun _ ↦ quiet_requireContainer _ _

theorem asks_registerAndStart (hquiet : ∀ c, c.Quiet → P c) (policy : ContainerPolicy)
    (container : ContainerInspect) (hbroker : ∀ id, Asks P (registerBroker id)) :
    Asks P (registerAndStart policy container registerBroker) := by
  apply (hbroker container.id).bind
  intro _
  split
  · trivial
  · apply Asks.bind
    · exact asks_awaitDocker (hquiet (.startContainer container.id) trivial)
    · exact fun _ ↦ (quiet_requireContainer _ _).imp hquiet

theorem asks_reconcileContainer (hquiet : ∀ c, c.Quiet → P c) (policy : ContainerPolicy)
    (artifact : StagedArtifactRecord) (hbroker : ∀ id, Asks P (registerBroker id)) :
    Asks P (reconcileContainer policy artifact registerBroker) := by
  apply Asks.bind (Asks.ask (hquiet .ensureNetwork trivial))
  intro _
  apply ((quiet_findOrCreateContainer policy).imp hquiet).bind
  intro container
  apply Asks.ofExcept.bind
  intro _
  apply (asks_registerAndStart hquiet policy container hbroker).bind
  intro container
  split
  · trivial
  · exact (Asks.ask (hquiet (.waitReady _ _) trivial)).bind fun _ ↦ trivial

end

/-! ## Requests -/

theorem asks_teardownRecorded {P : ServiceCall → Prop} (hquiet : ∀ c, c.Quiet → P c)
    (record : RuntimeRecord) (hdelete : P (.ledger (.deleteByRuntimeId record.runtimeId))) :
    Asks P (teardownRecorded record) := by
  have hcleanup (replicaId : String) : Asks P (awaitService (.cleanupBroker replicaId)) :=
    Asks.ask (hquiet _ trivial)
  apply ((quiet_inspectByName record.runtimeId).imp hquiet).bind
  intro container
  apply (Asks.forSome fun container ↦ (quiet_stopAndRemove container).imp hquiet).bind
  intro _
  apply (hcleanup record.replicaId).bind
  intro _
  apply (Asks.forSome hcleanup).bind
  intro _
  exact (Asks.ask hdelete).bind fun _ ↦ trivial

theorem inside_teardownRecorded (runtimeId : String) (record : RuntimeRecord) :
    Asks (ServiceCall.Inside runtimeId) (teardownRecorded record) :=
  asks_teardownRecorded (fun _ hc ↦ hc.inside runtimeId) record trivial

section

variable {platform : DriverPlatform} {config : RuntimeServiceConfig}

theorem asks_resolveStagedArtifact {P : ServiceCall → Prop} {digest : String}
    (h : P (.store (.resolve digest))) : Asks P (resolveStagedArtifact digest) := by
  apply (Asks.ask h).bind
  intro staged
  cases staged <;> trivial

theorem asks_requireRecord {P : ServiceCall → Prop} (h : P (.getByRuntimeId runtimeId)) :
    Asks P (requireRecord runtimeId) := by
  apply (Asks.ask h).bind
  intro record
  cases record <;> trivial

theorem inside_buildReady (runtimeId : String) (request : Json) (artifact : StagedArtifactRecord)
    (record : RuntimeRecord) :
    Asks (ServiceCall.Inside runtimeId) (buildReady platform config request artifact record) := by
  have hclock : Asks (ServiceCall.Inside runtimeId) serviceNow := asks_serviceNow trivial
  apply Asks.bind
  · exact Asks.ask trivial
  · intro _
    apply (asks_reconcileContainer (fun _ hc ↦ hc.inside runtimeId) _ _ _).bind
    · intro containerId
      apply hclock.bind
      intro _
      apply Asks.bind
      · exact Asks.ask trivial
      · intro _
        apply hclock.bind
        intro _
        apply Asks.bind
        · exact Asks.ask trivial
        · exact fun _ ↦ Asks.ofExcept.bind fun _ ↦ Asks.ofExcept
    · intro id
      apply (Asks.ask trivial).bind
      intro _
      apply hclock.bind
      intro _
      exact (Asks.ask trivial).bind fun _ ↦ trivial

theorem inside_ensureReadyLocked (request : Json) :
    Asks (ServiceCall.Inside (computeRuntimeId platform request))
      (ensureReadyLocked platform config request) := by
  apply (asks_resolveStagedArtifact trivial).bind
  intro artifact
  apply (Asks.ask trivial).bind
  intro prior
  apply Asks.bind
  · exact Asks.forSome fun prior ↦ Asks.onlyIf (inside_teardownRecorded _ prior)
  · intro _
    apply (asks_serviceNow trivial).bind
    intro now
    apply Asks.bind
    · exact Asks.ask rfl
    · intro record
      split
      · exact Asks.ofExcept.bind fun _ ↦ Asks.ofExcept
      · exact inside_buildReady _ request artifact record

theorem inside_buildActive (runtimeId : String) (request activation : Json)
    (artifact : StagedArtifactRecord) (record claimed : RuntimeRecord) :
    Asks (ServiceCall.Inside runtimeId)
      (buildActive platform config request activation artifact record claimed) := by
  have hinside (c : ServiceCall) (hc : c.Quiet) : c.Inside runtimeId := hc.inside runtimeId
  have hclock : Asks (ServiceCall.Inside runtimeId) serviceNow := asks_serviceNow trivial
  apply (Asks.ask trivial).bind
  intro _
  apply ((quiet_inspectByName _).imp hinside).bind
  intro current
  apply Asks.bind
  · apply Asks.onlyIf
    apply ((quiet_removeContainerVerified _ _ _).imp hinside).bind
    exact fun _ ↦ Asks.ask trivial
  · intro _
    apply (asks_reconcileContainer hinside _ _ _).bind
    · intro containerId
      apply hclock.bind
      intro _
      apply (Asks.ask trivial).bind
      intro _
      apply hclock.bind
      intro _
      apply (Asks.ask trivial).bind
      intro _
      apply hclock.bind
      intro _
      apply (Asks.ask trivial).bind
      exact fun _ ↦ Asks.ofExcept.bind fun _ ↦ Asks.ofExcept
    · intro id
      apply (Asks.ask trivial).bind
      intro _
      apply hclock.bind
      intro _
      exact (Asks.ask trivial).bind fun _ ↦ trivial

theorem throwWhen_eq_ok {condition : Prop} [Decidable condition] {error : ServiceError} :
    throwWhen condition error = .ok () ↔ ¬ condition := by
  unfold throwWhen
  split <;> simp_all

/-- An activation that is not refused names the runtime of the request. -/
theorem runtimeId_of_activation {activation request : Json} {artifact : StagedArtifactRecord}
    {replicaId : String} (h : assertActivationAffinity platform activation request
      (preactivationPolicy platform config request artifact runtimeId replicaId) artifact = .ok ()) :
    textField activation "runtime_id" = computeRuntimeId platform request := by
  have hfields := throwWhen_eq_ok.mp h
  have hnamed : field activation "runtime_id" = .str (computeRuntimeId platform request) := by
    by_contra hne
    exact hfields (.inr (.inl hne))
  unfold textField
  rw [hnamed]
  rfl

theorem inside_activateLocked (activation : Json) :
    Asks (ServiceCall.Inside (textField activation "runtime_id"))
      (activateLocked platform config activation) := by
  apply (asks_requireRecord trivial).bind
  intro record
  apply Asks.ofExcept_bind
  intro request _
  apply (asks_resolveStagedArtifact trivial).bind
  intro artifact
  apply Asks.ofExcept_bind
  intro _ haffinity
  have hnamed := runtimeId_of_activation haffinity
  apply Asks.bind
  · rw [hnamed]
    exact inside_ensureReadyLocked request
  · intro _
    apply (asks_serviceNow trivial).bind
    intro now
    apply (Asks.ask trivial).bind
    intro claimed
    split
    · exact Asks.ofExcept.bind fun _ ↦ Asks.ofExcept
    · exact inside_buildActive _ request activation artifact record claimed

end

end PrivosCluster.LocalRuntime
