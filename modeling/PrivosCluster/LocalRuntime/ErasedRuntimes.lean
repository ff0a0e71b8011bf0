import PrivosCluster.LocalRuntime.RuntimeLocks

/-!
# Runtimes that an erased artifact leaves behind

Erasing an artifact lists the runtimes on it that never activated, and tears them down one after the
other under their locks, before the artifact goes. A claim of another runtime that was resolved while
the artifact was still there may come after the listing.
-/

namespace PrivosCluster.LocalRuntime

open AsyncProgram ServiceCall List LedgerFile ServiceState Option

/-- A record on the artifact that never claimed an activation. -/
def RuntimeRecord.Stale (record : RuntimeRecord) (digest : String) : Prop :=
  record.artifactDigest = digest ∧ record.activationRequestHash = none

instance (record : RuntimeRecord) (digest : String) : Decidable (record.Stale digest) :=
  inferInstanceAs (Decidable (_ ∧ _))

def LedgerFile.LeavesStale (ledger : LedgerFile) (digest runtimeId : String) : Prop :=
  ∃ record, ledger.record runtimeId = some record ∧ record.Stale digest

def ServiceState.LeavesStale (s : ServiceState) (digest runtimeId : String) : Prop :=
  s.ledger.ledger.LeavesStale digest runtimeId

def ServiceState.Sound (s : ServiceState) : Prop :=
  ∃ ledger, s.ledger = .stored ledger ∧ ledger.Sound

/-! ## What a call does to the ledger -/

theorem Advance.stale {r r' : RuntimeRecord} {digest : String} (advance : Advance r r')
    (h : r'.Stale digest) : r.Stale digest := by
  cases advance with
  | activating input _ _ => exact absurd h.2 (Option.some_ne_none _)
  | _ => exact h

variable {state : LedgerFile} {c : ServiceCall} {h₀ : EraseNote} {record : RuntimeRecord}
  {records : List RuntimeRecord}

/-- Only a claim makes a record stale that was not there. -/
theorem Change.leavesStale {state' : LedgerFile} {call : LedgerCall} {digest runtimeId : String}
    (change : Change state call state') (h : state'.LeavesStale digest runtimeId) :
    state.LeavesStale digest runtimeId ∨ ∃ input, call = .claim input ∧
      input.runtimeId = runtimeId ∧ input.artifactDigest = digest ∧
      state.record runtimeId = none := by
  obtain ⟨record, hrecord, hstale⟩ := h
  cases change with
  | claimed input replicaId minted absent =>
    have hput : (state.put input.runtimeId (input.record replicaId)).record runtimeId =
        some record := by
      unfold claimSlot at hrecord
      split at hrecord <;> exact hrecord
    rw [LedgerFile.record_put] at hput
    split at hput
    next hid =>
      obtain rfl := some.inj hput
      exact .inr ⟨input, rfl, hid.symm, hstale.1, hid ▸ absent⟩
    next => exact .inl ⟨record, hput, hstale⟩
  | advanced _ q q' recorded advance =>
    rw [LedgerFile.record_put] at hrecord
    split at hrecord
    next hid =>
      obtain rfl := some.inj hrecord
      exact .inl ⟨q, hid ▸ recorded, advance.stale hstale⟩
    next => exact .inl ⟨record, hrecord, hstale⟩
  | activated input q recorded supervised =>
    rw [record_pointTo, LedgerFile.record_put] at hrecord
    split at hrecord
    next hid =>
      obtain rfl := some.inj hrecord
      exact .inl ⟨q, hid ▸ recorded, hstale⟩
    next => exact .inl ⟨record, hrecord, hstale⟩
  | removed id q recorded =>
    have hdrop : (state.dropRecord id).record runtimeId = some record := by
      unfold freeSlot at hrecord
      split at hrecord <;> exact hrecord
    rw [record_dropRecord] at hdrop
    split at hdrop
    · cases hdrop
    · exact .inl ⟨record, hdrop, hstale⟩

theorem LedgerCall.effect_perform (platform : LedgerPlatform) (clean : state.dirty = false)
    (call : LedgerCall) : Effect state call ((call.perform platform).exec (.stored state)) := by
  cases call with
  | claim input => exact effect_claim platform clean input
  | recordContainer _ _ _ _ => exact effect_recordContainer platform clean _ _ _ _
  | markReady _ _ _ _ _ => exact effect_markReady platform clean _ _ _ _ _
  | claimActivation input => exact effect_claimActivation platform clean input
  | recordBrokerRegistered _ _ => exact effect_recordBrokerRegistered platform clean _ _
  | recordActiveContainerReady _ _ _ =>
    exact effect_recordActiveContainerReady platform clean _ _ _
  | markActive input => exact effect_markActive platform clean input
  | deleteByRuntimeId _ => exact effect_deleteByRuntimeId platform clean _

theorem docker_ledger (s : ServiceState) (x : ServiceChoice)
    (change : List (String × ContainerInspect) → List (String × ContainerInspect)) :
    (s.docker x change).2.ledger = s.ledger := by
  unfold docker
  split <;> rfl

theorem docker_locks (s : ServiceState) (x : ServiceChoice)
    (change : List (String × ContainerInspect) → List (String × ContainerInspect)) :
    (s.docker x change).2.locks = s.locks := by
  unfold docker
  split <;> rfl

variable {id : String} {α : Type} {p : Served α}

section Host

variable {platform : DriverPlatform} {inspection : String → ImageInspect} {law : ServiceLaw}
  {s : ServiceState}

/-- A call leaves the ledger alone or makes the change of a ledger call. -/
theorem ledger_respond {ledger : LedgerFile} (hs : s.ledger = .stored ledger) (sound : ledger.Sound)
    (c : ServiceCall) (x : ServiceChoice) :
    ((driverHost platform inspection law).respond c x s).2.ledger = .stored ledger ∨
      ∃ call ledger', c = .ledger call ∧
        ((driverHost platform inspection law).respond c x s).2.ledger = .stored ledger' ∧
        Change ledger call ledger' := by
  have hsettled : (s.settled x).ledger = .stored ledger := hs
  cases c with
  | getByRuntimeId runtimeId =>
    left
    simp only [driverHost, ServiceState.serve, onLedger, hsettled, getByRuntimeId,
      exec_bind, exec_readLedger _ sound.clean]
    rfl
  | listRecords =>
    left
    simp only [driverHost, ServiceState.serve, onLedger, hsettled, listRecords,
      exec_bind, exec_readLedger _ sound.clean]
    rfl
  | ledger call =>
    have heffect := call.effect_perform (x.ledgerPlatform platform) sound.clean
    simp only [driverHost, ServiceState.serve, onLedger, hsettled]
    generalize (call.perform (x.ledgerPlatform platform)).exec (.stored ledger) = result at heffect
    cases heffect with
    | unchanged outcome => exact .inl rfl
    | changed a ledger' change => exact .inr ⟨call, ledger', rfl, rfl, change⟩
  | createContainer spec => exact .inl ((docker_ledger _ x _).trans hs)
  | startContainer id => exact .inl ((docker_ledger _ x _).trans hs)
  | stopContainer id => exact .inl ((docker_ledger _ x _).trans hs)
  | removeContainer id => exact .inl ((docker_ledger _ x _).trans hs)
  | _ => exact .inl hs

theorem sound_respond (hs : s.Sound) (c : ServiceCall) (x : ServiceChoice) :
    ((driverHost platform inspection law).respond c x s).2.Sound := by
  obtain ⟨ledger, hledger, hsound⟩ := hs
  obtain hsame | ⟨call, ledger', -, hnext, change⟩ := ledger_respond hledger hsound c x
  · exact ⟨ledger, hsame, hsound⟩
  · exact ⟨ledger', hnext, change.sound hsound⟩

theorem leavesStale_respond {digest runtimeId : String} (hs : s.Sound) (c : ServiceCall)
    (x : ServiceChoice)
    (h : ((driverHost platform inspection law).respond c x s).2.LeavesStale digest runtimeId) :
    s.LeavesStale digest runtimeId ∨ ∃ input, c = .ledger (.claim input) ∧
      input.runtimeId = runtimeId ∧ input.artifactDigest = digest ∧
      s.ledger.ledger.record runtimeId = none := by
  obtain ⟨ledger, hledger, hsound⟩ := hs
  unfold ServiceState.LeavesStale at h ⊢
  rw [hledger]
  obtain hsame | ⟨call, ledger', rfl, hnext, change⟩ := ledger_respond hledger hsound c x
  · rw [hsame] at h
    exact .inl h
  · rw [hnext] at h
    apply (change.leavesStale h).imp_right
    rintro ⟨input, rfl, hinput⟩
    exact ⟨input, rfl, hinput⟩

theorem quiet_respond {digest runtimeId : String} (hs : s.Sound) (hc : c.Quiet) (x : ServiceChoice)
    (h : ((driverHost platform inspection law).respond c x s).2.LeavesStale digest runtimeId) :
    s.LeavesStale digest runtimeId := by
  obtain hbefore | ⟨input, rfl, -⟩ := leavesStale_respond hs c x h
  · exact hbefore
  · exact hc.elim

theorem locks_respond (c : ServiceCall) (x : ServiceChoice) (h : id ∈ s.locks) :
    id ∈ ((driverHost platform inspection law).respond c x s).2.locks ∨ c = .unlock id := by
  cases c with
  | lock runtimeId => exact .inl (mem_cons_of_mem _ h)
  | unlock runtimeId =>
    by_cases hid : id = runtimeId
    · exact .inr (by rw [hid])
    · exact .inl (mem_filter.mpr ⟨h, decide_eq_true hid⟩)
  | createContainer spec => exact .inl ((docker_locks _ x _).symm ▸ h)
  | startContainer id => exact .inl ((docker_locks _ x _).symm ▸ h)
  | stopContainer id => exact .inl ((docker_locks _ x _).symm ▸ h)
  | removeContainer id => exact .inl ((docker_locks _ x _).symm ▸ h)
  | _ => exact .inl h

end Host

/-! ## Notes of a thread -/

/-- The locks that a thread holds, the runtimes that its listing showed to be torn down, and those
that it has unlocked since. -/
structure EraseNote where
  held : List String := []
  listed : Option (List String) := none
  left : List String := []

/-- The runtimes that a listing shows to be torn down. -/
def staleIds (digest : String) (records : List RuntimeRecord) : List String :=
  (records.filter (·.Stale digest)).map (·.runtimeId)

def EraseNote.after (digest : String) (h : EraseNote) :
    (c : ServiceCall) → Except ServiceError c.Answer → EraseNote
  | .lock runtimeId, .ok _ => { h with held := runtimeId :: h.held }
  | .unlock runtimeId, .ok _ =>
    { h with held := h.held.filter (· ≠ runtimeId), left := runtimeId :: h.left }
  | .listRecords, .ok records => { h with listed := some (staleIds digest records), left := [] }
  | _, _ => h

/-- A listing has been made, and does not show the runtime or the runtime has been visited. -/
def EraseNote.Passed (h : EraseNote) (runtimeId : String) : Prop :=
  ∃ ids, h.listed = some ids ∧ (runtimeId ∉ ids ∨ runtimeId ∈ h.left)

theorem ServiceCall.Quiet.after (hc : c.Quiet) (digest : String) (h : EraseNote)
    (answer : Except ServiceError c.Answer) : h.after digest c answer = h := by
  cases c with
  | lock _ => exact hc.elim
  | unlock _ => exact hc.elim
  | listRecords => exact hc.elim
  | ledger _ => exact hc.elim
  | _ => rfl

/-- Calls that are made only while the lock of this runtime is held. -/
def ServiceCall.Needs (runtimeId : String) : ServiceCall → Prop
  | .unlock id => id = runtimeId
  | .ledger (.claim input) => input.runtimeId = runtimeId
  | _ => False

/-- A thread makes its calls under its locks. While a removal goes on, a runtime that it has passed
or holds does not become stale. -/
def eraseContract (digest : String) (erases : Prop) :
    Contract serviceSignature ServiceError ServiceState ServiceChoice EraseNote where
  track h c answer := h.after digest c answer
  assumes _ _ s := s.Sound
  rely h s s' := erases → ∀ runtimeId, h.Passed runtimeId ∨ runtimeId ∈ h.held →
    s'.LeavesStale digest runtimeId → s.LeavesStale digest runtimeId
  ensures h c _ _ := ∀ runtimeId, c.Needs runtimeId → runtimeId ∈ h.held
  rely_refl _ _ _ _ _ h := h
  rely_trans _ _ _ _ h h' herases id hid hstale :=
    h herases id hid (h' herases id hid hstale)

section Threads

variable {platform : DriverPlatform} {config : RuntimeServiceConfig}
  {inspection : String → ImageInspect} {law : ServiceLaw} {digest : String} {erases : Prop}
  {h : EraseNote} {s : ServiceState}

/-! ## Requests under their lock -/

variable {runtimeId : String}

theorem ServiceCall.Inside.needs (hc : c.Inside runtimeId) (hneeds : c.Needs id) :
    id = runtimeId := by
  cases c with
  | unlock _ => exact hc.elim
  | ledger call =>
    cases call with
    | claim input => exact hneeds.symm.trans hc
    | _ => exact hneeds.elim
  | _ => exact hneeds.elim

theorem ServiceCall.Inside.after (hc : c.Inside runtimeId) (digest : String) (h : EraseNote)
    (answer : Except ServiceError c.Answer) : h.after digest c answer = h := by
  cases c with
  | lock _ => exact hc.elim
  | unlock _ => exact hc.elim
  | listRecords => exact hc.elim
  | _ => rfl

theorem among_withRuntimeLock (hp : Asks (ServiceCall.Inside runtimeId) p) :
    Among (driverHost platform inspection law) (eraseContract digest erases) (fun _ _ _ ↦ True)
      (withRuntimeLock runtimeId p) h s := by
  apply Among.bind (R := fun _ h _ ↦ runtimeId ∈ h.held)
  · intro s' _ x _ _
    exact ⟨fun _ hneeds ↦ hneeds.elim, mem_cons_self⟩
  · intro _ h s hheld
    apply Among.finallyDo (R := fun _ h _ ↦ runtimeId ∈ h.held)
    · apply Among.keeps hp
      · exact fun _ _ _ _ hheld ↦ hheld
      · intro h c x s hc _ _ hheld
        constructor
        · intro id hneeds
          rw [hc.needs hneeds]
          exact hheld
        · rw [show (eraseContract digest erases).track h c _ = h from hc.after digest h _]
          exact hheld
      · exact hheld
    · intro r h s hheld s' _ x _ _
      constructor
      · intro id hneeds
        rw [← show runtimeId = id from hneeds]
        exact hheld
      · trivial
  · exact fun _ _ _ _ ↦ trivial

/-- The requests that may go on while an artifact is erased. -/
inductive RuntimeRequest where
  | ensureReady (rawRequest : Json)
  | activate (rawRequest : Json)

def RuntimeRequest.program (platform : DriverPlatform) (config : RuntimeServiceConfig) :
    RuntimeRequest → Served Unit
  | ensureReady rawRequest => do
    let _ ← LocalRuntime.ensureReady platform config rawRequest
    .pure ()
  | activate rawRequest => do
    let _ ← LocalRuntime.activate platform config rawRequest
    .pure ()

theorem among_request (request : RuntimeRequest) :
    Among (driverHost platform inspection law) (eraseContract digest erases) (fun _ _ _ ↦ True)
      (request.program platform config) h s := by
  cases request with
  | ensureReady rawRequest =>
    apply Among.bind (R := fun _ _ _ ↦ True)
    · apply Among.bind (R := fun _ _ _ ↦ True)
      · exact Among.ofExcept trivial
      · exact fun request _ _ _ ↦ among_withRuntimeLock (inside_ensureReadyLocked request)
      · exact fun _ _ _ _ ↦ trivial
    · exact fun _ _ _ _ ↦ trivial
    · exact fun _ _ _ _ ↦ trivial
  | activate rawRequest =>
    apply Among.bind (R := fun _ _ _ ↦ True)
    · apply Among.bind (R := fun _ _ _ ↦ True)
      · exact Among.ofExcept trivial
      · exact fun activation _ _ _ ↦ among_withRuntimeLock (inside_activateLocked activation)
      · exact fun _ _ _ _ ↦ trivial
    · exact fun _ _ _ _ ↦ trivial
    · exact fun _ _ _ _ ↦ trivial

/-! ## The removal -/

/-- No runtime that the note counts as passed is stale. -/
def Clean (digest : String) (h : EraseNote) (s : ServiceState) : Prop :=
  ∀ runtimeId, h.Passed runtimeId → ¬ s.LeavesStale digest runtimeId

theorem Clean.stable {s' : ServiceState} (herases : erases) (hclean : Clean digest h s)
    (hrely : (eraseContract digest erases).rely h s s') : Clean digest h s' :=
  fun id hpassed hstale ↦ hclean id hpassed (hrely herases id (.inl hpassed) hstale)

/-- Calls that leave the ledger alone keep what has been reached. -/
theorem among_quiet (herases : erases) (hp : Asks ServiceCall.Quiet p)
    (hclean : Clean digest h₀ s) :
    Among (driverHost platform inspection law) (eraseContract digest erases)
      (fun _ h s ↦ h = h₀ ∧ Clean digest h₀ s) p h₀ s := by
  apply Among.keeps hp (I := fun h s ↦ h = h₀ ∧ Clean digest h₀ s)
  · rintro h s s' hrely ⟨rfl, hclean⟩
    exact ⟨rfl, hclean.stable herases hrely⟩
  · rintro h c x s hc _ hs ⟨rfl, hclean⟩
    refine ⟨fun id hneeds ↦ ?_, hc.after digest h _, fun id hpassed hstale ↦ ?_⟩
    · cases c with
      | unlock _ => exact hc.elim
      | ledger _ => exact hc.elim
      | _ => exact hneeds.elim
    · exact hclean id hpassed (quiet_respond hs hc x hstale)
  · exact ⟨rfl, hclean⟩

theorem not_leavesStale_of_deleted (hs : s.Sound) (x : ServiceChoice) :
    ¬ ((driverHost platform inspection law).respond (.ledger (.deleteByRuntimeId runtimeId)) x
      s).2.LeavesStale digest runtimeId := by
  obtain ⟨ledger, hledger, hsound⟩ := hs
  have hsettled : (s.settled x).ledger = .stored ledger := hledger
  rintro ⟨record, hrecord, -⟩
  simp only [driverHost, ServiceState.serve, onLedger, hsettled, LedgerCall.perform,
    deleteByRuntimeId, exec_bind, exec_readLedger _ hsound.clean] at hrecord
  cases hbefore : ledger.record runtimeId with
  | none =>
    rw [hbefore] at hrecord
    exact absurd (hbefore.symm.trans hrecord) (Option.some_ne_none record).symm
  | some q =>
    rw [hbefore] at hrecord
    have hdrop : (ledger.dropRecord runtimeId).record runtimeId = some record := by
      have hafter : ((ledger.dropRecord runtimeId).freeSlot q.generationId runtimeId).record
          runtimeId = some record := hrecord
      unfold freeSlot at hafter
      split at hafter <;> exact hafter
    simp at hdrop

/-- A runtime is not stale once its tear-down has returned. -/
theorem among_teardownRecorded (herases : erases) (hclean : Clean digest h₀ s) :
    Among (driverHost platform inspection law) (eraseContract digest erases)
      (fun r h s ↦ h = h₀ ∧ Clean digest h₀ s ∧
        (r = .ok () → ¬ s.LeavesStale digest record.runtimeId))
      (teardownRecorded record) h₀ s := by
  have herror {α : Type} (e : ServiceError) (h : EraseNote) (s : ServiceState)
      (hfailed : h = h₀ ∧ Clean digest h₀ s) : h = h₀ ∧ Clean digest h₀ s ∧
        ((.error e : Except ServiceError Unit) = .ok () →
          ¬ s.LeavesStale digest record.runtimeId) := ⟨hfailed.1, hfailed.2, nofun⟩
  apply (among_quiet herases (quiet_inspectByName record.runtimeId) hclean).bind _ (@herror Unit)
  rintro container h s ⟨rfl, hclean⟩
  apply (among_quiet herases (Asks.forSome quiet_stopAndRemove) hclean).bind _ (@herror Unit)
  rintro _ h s ⟨rfl, hclean⟩
  have hcleanup (replicaId : String) : Asks ServiceCall.Quiet (awaitService (.cleanupBroker replicaId)) :=
    Asks.ask trivial
  apply (among_quiet herases (hcleanup record.replicaId) hclean).bind _ (@herror Unit)
  rintro _ h s ⟨rfl, hclean⟩
  apply (among_quiet herases (Asks.forSome hcleanup) hclean).bind _ (@herror Unit)
  rintro _ h s ⟨rfl, hclean⟩
  apply Among.bind (R := fun _ h' s ↦ h' = h ∧ Clean digest h s ∧
    ¬ s.LeavesStale digest record.runtimeId)
  · apply Among.ask
    intro s' hrely x _ hs
    refine ⟨fun _ hneeds ↦ hneeds.elim, rfl, fun id hpassed hstale ↦ ?_,
      not_leavesStale_of_deleted hs x⟩
    obtain hbefore | ⟨input, hcall, -⟩ := leavesStale_respond hs _ x hstale
    · exact hclean.stable herases hrely id hpassed hbefore
    · cases hcall
  · exact fun _ _ _ hdone ↦ ⟨hdone.1, hdone.2.1, fun _ ↦ hdone.2.2⟩
  · exact fun _ _ _ hdone ↦ ⟨hdone.1, hdone.2.1, nofun⟩

/-- What is answered for a runtime, on a sound ledger. -/
theorem getByRuntimeId_respond (hs : s.Sound) (runtimeId : String) (x : ServiceChoice) :
    ∃ current, ((driverHost platform inspection law).respond (.getByRuntimeId runtimeId) x s).1 =
        .ok current ∧ s.ledger.ledger.record runtimeId = current ∧
      ∀ record, current = some record → record.runtimeId = runtimeId := by
  obtain ⟨ledger, hledger, hsound⟩ := hs
  have hsettled : (s.settled x).ledger = .stored ledger := hledger
  refine ⟨ledger.record runtimeId, ?_, by rw [hledger]; rfl, fun _ h ↦ (hsound.record h).2⟩
  simp only [driverHost, ServiceState.serve, onLedger, hsettled, getByRuntimeId,
    exec_bind, exec_readLedger _ hsound.clean]
  rfl

/-- A runtime that is looked at under its lock is not stale afterwards, unless that fails. -/
theorem among_visit (herases : erases) (hclean : Clean digest h₀ s) :
    Among (driverHost platform inspection law) (eraseContract digest erases)
      (fun r h s ↦ h = h₀ ∧ Clean digest h₀ s ∧ (r = .ok () → ¬ s.LeavesStale digest runtimeId))
      (do
        let current ← awaitService (.getByRuntimeId runtimeId)
        Program.forSome current fun current ↦
          Program.onlyIf (current.activationRequestHash = none) (teardownRecorded current))
      h₀ s := by
  apply Among.bind (R := onExit
    (fun current h s ↦ h = h₀ ∧ Clean digest h₀ s ∧ s.ledger.ledger.record runtimeId = current ∧
      ∀ record, current = some record → record.runtimeId = runtimeId)
    fun _ _ _ ↦ False)
  · intro s' hrely x _ hs
    obtain ⟨current, hanswer, hrecord, hnamed⟩ :=
      @getByRuntimeId_respond platform inspection law s' hs runtimeId x
    refine ⟨fun _ hneeds ↦ hneeds.elim, ?_⟩
    rw [hanswer]
    refine ⟨rfl, fun id hpassed hstale ↦ ?_, ?_, hnamed⟩
    · exact hclean.stable herases hrely id hpassed
        (quiet_respond (c := .getByRuntimeId runtimeId) hs trivial x hstale)
    · obtain ⟨ledger, hledger, hsound⟩ := hs
      rcases @ledger_respond platform inspection law s' ledger hledger hsound
        (.getByRuntimeId runtimeId) x with hsame | ⟨_, _, hcall, -⟩
      · rw [hsame, ← hledger]
        exact hrecord
      · cases hcall
  · rintro current h s ⟨rfl, hclean, hrecord, hnamed⟩
    have hstale (hleft : s.LeavesStale digest runtimeId) :
        ∃ record, current = some record ∧ record.activationRequestHash = none := by
      obtain ⟨record, hfound, hstale⟩ := hleft
      exact ⟨record, hrecord.symm.trans hfound, hstale.2⟩
    cases current with
    | none => exact ⟨rfl, hclean, fun _ hleft ↦ by obtain ⟨_, h, _⟩ := hstale hleft; cases h⟩
    | some record =>
      apply Among.onlyIf
      · intro _
        rw [← hnamed record rfl]
        exact among_teardownRecorded herases hclean
      · intro hactivated
        refine ⟨rfl, hclean, fun _ hleft ↦ ?_⟩
        obtain ⟨record', hsame, hnone⟩ := hstale hleft
        obtain rfl := some.inj hsame
        exact hactivated hnone
  · exact fun _ _ _ h ↦ h.elim

theorem listRecords_respond (hs : s.Sound) (x : ServiceChoice) :
    ∃ records, ((driverHost platform inspection law).respond .listRecords x s).1 = .ok records ∧
      ∀ runtimeId, s.LeavesStale digest runtimeId → runtimeId ∈ staleIds digest records := by
  obtain ⟨ledger, hledger, hsound⟩ := hs
  have hsettled : (s.settled x).ledger = .stored ledger := hledger
  refine ⟨ledger.byRuntimeId.entries.map fun e ↦ e.2, ?_, ?_⟩
  · simp only [driverHost, ServiceState.serve, onLedger, hsettled, listRecords,
      exec_bind, exec_readLedger _ hsound.clean]
    rfl
  · rintro runtimeId ⟨record, hrecord, hstale⟩
    rw [hledger] at hrecord
    have hentry := AList.mem_lookup_iff.mp hrecord
    rw [← (hsound.record hrecord).2]
    apply List.mem_map_of_mem
    apply mem_filter.mpr
    exact ⟨List.mem_map_of_mem (f := fun e ↦ e.2) hentry, decide_eq_true hstale⟩

/-- How far the removal has come. -/
structure Progress (digest : String) (records visited : List RuntimeRecord) (h : EraseNote)
    (s : ServiceState) : Prop where
  listed : h.listed = some (staleIds digest records)
  visited : ∀ record ∈ visited, record.Stale digest → record.runtimeId ∈ h.left
  clean : Clean digest h s

theorem Progress.start (h : EraseNote)
    (hlists : ∀ runtimeId, s.LeavesStale digest runtimeId → runtimeId ∈ staleIds digest records) :
    Progress digest records [] { h with listed := some (staleIds digest records), left := [] } s where
  listed := rfl
  visited _ hrecord := absurd hrecord not_mem_nil
  clean runtimeId := by
    rintro ⟨ids, hids, hpassed⟩ hstale
    obtain rfl := some.inj hids
    obtain hnot | hleft := hpassed
    · exact hnot (hlists runtimeId hstale)
    · exact absurd hleft not_mem_nil

theorem among_eraseRuntime {visited : List RuntimeRecord} (herases : erases)
    (hprogress : Progress digest records visited h s) :
    Among (driverHost platform inspection law) (eraseContract digest erases)
      (onExit (fun _ ↦ Progress digest records (visited ++ [record])) fun _ _ _ ↦ True)
      (eraseRuntime digest record) h s := by
  obtain ⟨hlisted, hvisited, hclean⟩ := hprogress
  apply Among.onlyIf
  · intro _
    let h₁ : EraseNote := { h with held := record.runtimeId :: h.held }
    apply Among.bind (R := fun _ h' s ↦ h' = h₁ ∧ Clean digest h₁ s)
    · intro s' hrely x _ hs
      refine ⟨fun _ hneeds ↦ hneeds.elim, rfl, fun id hpassed hstale ↦ ?_⟩
      obtain hbefore | ⟨input, hcall, -⟩ := leavesStale_respond hs _ x hstale
      · exact hclean.stable herases hrely id hpassed hbefore
      · cases hcall
    · rintro _ h' s ⟨rfl, hclean⟩
      apply Among.finallyDo (among_visit herases hclean)
      rintro r h' s ⟨rfl, hclean, hdone⟩
      intro s' hrely x _ hs
      constructor
      · intro id hneeds
        rw [← show record.runtimeId = id from hneeds]
        exact mem_cons_self
      · cases r with
        | error e => trivial
        | ok _ =>
          -- the runtime just visited is the only one that the unlocking adds to those passed
          refine ⟨hlisted, fun other hother hstale ↦ ?_, fun id hpassed hstale ↦ ?_⟩
          · obtain hother | hother := mem_append.mp hother
            · exact mem_cons_of_mem _ (hvisited other hother hstale)
            · rw [mem_singleton.mp hother]
              exact mem_cons_self
          · have hbefore : s'.LeavesStale digest id := by
              obtain hbefore | ⟨input, hcall, -⟩ := leavesStale_respond hs _ x hstale
              · exact hbefore
              · cases hcall
            by_cases hid : id = record.runtimeId
            · rw [hid] at hbefore
              exact hdone rfl (hrely herases _ (.inr mem_cons_self) hbefore)
            · obtain ⟨ids, hids, hpassed⟩ := hpassed
              have hleft : h₁.Passed id := by
                refine ⟨ids, hids, hpassed.imp_right fun hmem ↦ ?_⟩
                exact (mem_cons.mp hmem).resolve_left hid
              exact hclean.stable herases hrely id hleft hbefore
    · exact fun _ _ _ _ ↦ trivial
  · intro hskip
    refine ⟨hlisted, fun other hother hstale ↦ ?_, hclean⟩
    obtain hother | hother := mem_append.mp hother
    · exact hvisited other hother hstale
    · rw [mem_singleton.mp hother] at hstale
      exact absurd hstale hskip

theorem Progress.done (hprogress : Progress digest records records h s) (runtimeId : String) :
    h.Passed runtimeId ∧ ¬ s.LeavesStale digest runtimeId := by
  have hpassed : h.Passed runtimeId := by
    refine ⟨_, hprogress.listed, ?_⟩
    by_cases hid : runtimeId ∈ staleIds digest records
    · obtain ⟨record, hrecord, rfl⟩ := List.mem_map.mp hid
      obtain ⟨hmem, hstale⟩ := mem_filter.mp hrecord
      exact .inr (hprogress.visited record hmem (of_decide_eq_true hstale))
    · exact .inl hid
  exact ⟨hpassed, hprogress.clean runtimeId hpassed⟩

theorem quiet_eraseArtifact (digest : String) : Asks ServiceCall.Quiet (eraseArtifact digest) := by
  apply Asks.delegate
  intro c
  exact Asks.ask (show ServiceCall.Quiet (.store c) from trivial)

/-- The removal, whose answer is not looked at. -/
def eraseThread (digest : String) : Served Unit := do
  let _ ← removeArtifact digest
  .pure ()

/-- A removal that returns has passed every runtime and left no stale one. -/
theorem among_eraseThread (herases : erases) :
    Among (driverHost platform inspection law) (eraseContract digest erases)
      (fun r h s ↦ r = .ok () → ∀ runtimeId, h.Passed runtimeId ∧
        ¬ s.LeavesStale digest runtimeId)
      (eraseThread digest) h s := by
  apply Among.bind (R := onExit
    (fun _ h s ↦ ∀ runtimeId, h.Passed runtimeId ∧ ¬ s.LeavesStale digest runtimeId)
    fun _ _ _ ↦ True)
  · apply Among.bind (R := onExit (fun records ↦ Progress digest records []) fun _ _ _ ↦ False)
    · intro s' _ x _ hs
      obtain ⟨records, hanswer, hlists⟩ :=
        @listRecords_respond platform inspection law digest s' hs x
      refine ⟨fun _ hneeds ↦ hneeds.elim, ?_⟩
      rw [hanswer]
      apply Progress.start h
      intro id hstale
      obtain hbefore | ⟨input, hcall, -⟩ := leavesStale_respond hs _ x hstale
      · exact hlists id hbefore
      · cases hcall
    · intro records h s hstart
      apply Among.bind
      · apply Among.foldEach (I := Progress digest records) (E := fun _ _ _ ↦ True)
        · exact fun visited record rest _ h s _ hprogress ↦ among_eraseRuntime herases hprogress
        · exact hstart
      · intro _ h s hprogress
        apply (among_quiet herases (quiet_eraseArtifact digest) hprogress.clean).imp
        rintro r h' s' ⟨rfl, hclean⟩
        have hdone : Progress digest records records h' s' :=
          ⟨hprogress.listed, hprogress.visited, hclean⟩
        cases r with
        | ok _ => exact hdone.done
        | error _ => trivial
      · exact fun _ _ _ _ ↦ trivial
    · exact fun _ _ _ h ↦ h.elim
  · exact fun _ _ _ hdone _ ↦ hdone
  · exact fun _ _ _ _ ↦ nofun

end Threads

end PrivosCluster.LocalRuntime
