import PrivosCluster.LocalRuntime.ErasedRuntimes

/-!
# Erasing among other requests

The removal of an artifact and requests on any runtimes, in every order of their calls. What the
removal has passed is no longer looked at, so a claim behind it stays.
-/

namespace PrivosCluster.LocalRuntime

open AsyncProgram ServiceCall List Function LedgerFile ServiceState StagedArtifactRecord

/-! ## All threads together -/

variable {c : ServiceCall} {x : ServiceChoice} {s' : ServiceState}

section Together

variable {ι : Type} [DecidableEq ι] {platform : DriverPlatform} {config : RuntimeServiceConfig}
  {inspection : String → ImageInspect} {law : ServiceLaw} {digest : String} {i₀ : ι}

/-- One thread erases the artifact, the others serve requests. -/
def whileErasing (platform : DriverPlatform) (config : RuntimeServiceConfig) (digest : String)
    (i₀ : ι) (requests : ι → RuntimeRequest) (s : ServiceState) :
    Pool serviceSignature ServiceError ServiceState ι where
  threads := Function.update (fun i ↦ (requests i).program platform config) i₀ (eraseThread digest)
  state := s

theorem whileErasing_self {requests : ι → RuntimeRequest} {s : ServiceState} :
    (whileErasing platform config digest i₀ requests s).threads i₀ = eraseThread digest := by
  simp only [whileErasing, update_self]

theorem whileErasing_of_ne {requests : ι → RuntimeRequest} {s : ServiceState} {i : ι}
    (h : i ≠ i₀) : (whileErasing platform config digest i₀ requests s).threads i =
      (requests i).program platform config := by
  simp only [whileErasing, update_of_ne h]

/-- No lock is held by two threads. -/
structure Separate (notes : ι → EraseNote) (s : ServiceState) : Prop where
  sound : s.Sound
  locked : ∀ i, ∀ id ∈ (notes i).held, id ∈ s.locks
  apart : ∀ i j id, id ∈ (notes i).held → id ∈ (notes j).held → i = j

/-- No record is made for a runtime that the removal has passed. -/
def InTime (digest : String) (i₀ : ι) (notes : ι → EraseNote) (_ : ι) (c : ServiceCall)
    (_ : ServiceChoice) (s : ServiceState) : Prop :=
  s.Sound ∧ ∀ input, c = .ledger (.claim input) → input.artifactDigest = digest →
    s.ledger.ledger.record input.runtimeId = none → ¬ (notes i₀).Passed input.runtimeId

theorem held_respond {h : EraseNote} {s : ServiceState} {id : String}
    (hheld : id ∈ (h.after digest c ((driverHost platform inspection law).respond c x s).1).held) :
    (id ∈ h.held ∧ c ≠ .unlock id) ∨ c = .lock id := by
  cases c with
  | lock runtimeId =>
    obtain rfl | hheld := mem_cons.mp hheld
    · exact .inr rfl
    · exact .inl ⟨hheld, nofun⟩
  | unlock runtimeId =>
    obtain ⟨hheld, hne⟩ := mem_filter.mp hheld
    refine .inl ⟨hheld, fun hid ↦ ?_⟩
    cases hid
    exact of_decide_eq_true hne rfl
  | listRecords =>
    generalize ((driverHost platform inspection law).respond .listRecords x s).1 = answer at hheld
    cases answer <;> exact .inl ⟨hheld, nofun⟩
  | _ => exact .inl ⟨hheld, nofun⟩

theorem Separate.update {notes : ι → EraseNote} {s : ServiceState} {i : ι} (h : Separate notes s)
    (hx : Grantable c s) (hensures : ∀ id, c.Needs id → id ∈ (notes i).held) :
    Separate (Function.update notes i ((notes i).after digest c
        ((driverHost platform inspection law).respond c x s).1))
      ((driverHost platform inspection law).respond c x s).2 := by
  -- a lock that is held after the call was held before and is not given back, or is taken now
  have hbefore (j : ι) (id : String) (hheld : id ∈ (Function.update notes i ((notes i).after digest c
      ((driverHost platform inspection law).respond c x s).1) j).held) :
      (id ∈ (notes j).held ∧ c ≠ .unlock id) ∨ (j = i ∧ c = .lock id) := by
    by_cases hij : j = i
    · subst hij
      rw [update_self] at hheld
      exact (held_respond hheld).imp_right fun hlock ↦ ⟨rfl, hlock⟩
    · rw [update_of_ne hij] at hheld
      refine .inl ⟨hheld, ?_⟩
      rintro rfl
      exact hij (h.apart j i id hheld (hensures id rfl))
  refine ⟨sound_respond h.sound c x, fun j id hheld ↦ ?_, fun j k id hj hk ↦ ?_⟩
  · obtain ⟨hheld, hkept⟩ | ⟨-, rfl⟩ := hbefore j id hheld
    · exact (locks_respond c x (h.locked j id hheld)).resolve_right hkept
    · exact mem_cons_self
  · obtain ⟨hheldj, -⟩ | ⟨rfl, rfl⟩ := hbefore j id hj
    · obtain ⟨hheldk, -⟩ | ⟨rfl, rfl⟩ := hbefore k id hk
      · exact h.apart j k id hheldj hheldk
      · exact absurd (h.locked j id hheldj) (hx id rfl)
    · obtain ⟨hheldk, -⟩ | ⟨rfl, -⟩ := hbefore k id hk
      · exact absurd (h.locked k id hheldk) (hx id rfl)
      · rfl

theorem erasing_team : TeamUnder (driverHost platform inspection law)
    (fun i ↦ eraseContract digest (i = i₀))
    (fun i r h s ↦ i = i₀ → r = .ok () → ∀ runtimeId, h.Passed runtimeId ∧
      ¬ s.LeavesStale digest runtimeId) Separate (InTime digest i₀) where
  stable i r h s s' hrely hQ herases hr id := by
    obtain ⟨hpassed, hnot⟩ := hQ herases hr id
    exact ⟨hpassed, fun hstale ↦ hnot (hrely herases id (.inl hpassed) hstale)⟩
  assumes _ _ _ _ _ _ hA := hA.1
  fits notes s i c x hJ hx hA hensures j hij := by
    intro herases id hid hstale
    rcases leavesStale_respond hJ.sound c x hstale with
      hbefore | ⟨input, hcall, hruntime, hdigest, hnone⟩
    · exact hbefore
    · subst hcall
      obtain hpassed | hheld := hid
      · subst herases
        rw [← hruntime] at hpassed hnone
        exact absurd hpassed (hA.2 input rfl hdigest hnone)
      · exact absurd (hJ.apart j i id hheld (hensures id hruntime)) hij
  keeps notes s i c x hJ hx _ hensures := hJ.update hx.1 hensures

/-- The removal has made its listing, which did not show the runtime, or it has unlocked the runtime
since. -/
def PassedBy (platform : DriverPlatform) (inspection : String → ImageInspect) (law : ServiceLaw)
    (digest : String) (i₀ : ι) (pool : Pool serviceSignature ServiceError ServiceState ι)
    (before : List (Event serviceSignature ServiceChoice ι)) (runtimeId : String) : Prop :=
  ∃ earlier e later pool₁, before = earlier ++ e :: later ∧
    Pool.Run (driverHost platform inspection law) pool earlier pool₁ ∧
    e.thread = i₀ ∧ e.call = .listRecords ∧
    (¬ pool₁.state.LeavesStale digest runtimeId ∨
      ∃ e' ∈ later, e'.thread = i₀ ∧ e'.call = .unlock runtimeId)

/-- A record on the artifact is made for a runtime that the removal has passed. -/
def ClaimsBehind (platform : DriverPlatform) (inspection : String → ImageInspect) (law : ServiceLaw)
    (digest : String) (i₀ : ι) (pool : Pool serviceSignature ServiceError ServiceState ι)
    (before : List (Event serviceSignature ServiceChoice ι))
    (e : Event serviceSignature ServiceChoice ι) (s : ServiceState) : Prop :=
  ∃ input, e.call = .ledger (.claim input) ∧ input.artifactDigest = digest ∧
    s.ledger.ledger.record input.runtimeId = none ∧
    PassedBy platform inspection law digest i₀ pool before input.runtimeId

variable {pool pool' : Pool serviceSignature ServiceError ServiceState ι}
  {events before : List (Event serviceSignature ServiceChoice ι)} {notes notes' : ι → EraseNote}

theorem sound_of_run (run : Pool.Run (driverHost platform inspection law) pool events pool')
    (sound : pool.state.Sound) : pool'.state.Sound :=
  run.retains (fun e _ _ _ hs ↦ sound_respond hs e.call e.choice) sound

/-- Before these events the thread has listed these runtimes and then unlocked those. -/
def HasListed (platform : DriverPlatform) (inspection : String → ImageInspect) (law : ServiceLaw)
    (digest : String) (i₀ : ι) (pool : Pool serviceSignature ServiceError ServiceState ι)
    (before : List (Event serviceSignature ServiceChoice ι)) (ids left : List String) : Prop :=
  ∃ earlier e later pool₁, before = earlier ++ e :: later ∧
    Pool.Run (driverHost platform inspection law) pool earlier pool₁ ∧
    e.thread = i₀ ∧ e.call = .listRecords ∧
    (∀ runtimeId, runtimeId ∉ ids → ¬ pool₁.state.LeavesStale digest runtimeId) ∧
    ∀ runtimeId ∈ left, ∃ e' ∈ later, e'.thread = i₀ ∧ e'.call = .unlock runtimeId

namespace HasListed

variable {ids left : List String}

theorem passedBy (h : HasListed platform inspection law digest i₀ pool before ids left)
    {runtimeId : String} (hpassed : runtimeId ∉ ids ∨ runtimeId ∈ left) :
    PassedBy platform inspection law digest i₀ pool before runtimeId := by
  obtain ⟨earlier, e, later, pool₁, hsplit, run, hthread, hcall, hlisted, hleft⟩ := h
  exact ⟨earlier, e, later, pool₁, hsplit, run, hthread, hcall,
    hpassed.imp (hlisted runtimeId) (hleft runtimeId)⟩

theorem snoc (h : HasListed platform inspection law digest i₀ pool before ids left)
    (e : Event serviceSignature ServiceChoice ι) :
    HasListed platform inspection law digest i₀ pool (before ++ [e]) ids left := by
  obtain ⟨earlier, e₁, later, pool₁, hsplit, run, hthread, hcall, hlisted, hleft⟩ := h
  refine ⟨earlier, e₁, later ++ [e], pool₁, by simp [hsplit], run, hthread, hcall, hlisted, ?_⟩
  intro id hid
  obtain ⟨e', he', hunlock⟩ := hleft id hid
  exact ⟨e', mem_append_left _ he', hunlock⟩

theorem unlock (h : HasListed platform inspection law digest i₀ pool before ids left)
    (runtimeId : String) (x : ServiceChoice) :
    HasListed platform inspection law digest i₀ pool (before ++ [⟨i₀, .unlock runtimeId, x⟩]) ids
      (runtimeId :: left) := by
  obtain ⟨earlier, e₁, later, pool₁, hsplit, run, hthread, hcall, hlisted, hleft⟩ := h
  refine ⟨earlier, e₁, later ++ [⟨i₀, .unlock runtimeId, x⟩], pool₁, by simp [hsplit], run, hthread,
    hcall, hlisted, ?_⟩
  intro id hid
  obtain rfl | hid := mem_cons.mp hid
  · exact ⟨_, mem_append_right _ (mem_singleton_self _), rfl, rfl⟩
  · obtain ⟨e', he', hunlock⟩ := hleft id hid
    exact ⟨e', mem_append_left _ he', hunlock⟩

end HasListed

/-- A note that lists runtimes goes back to a listing of the thread. -/
theorem hasListed_of_noted (noted : Pool.Noted (driverHost platform inspection law)
      (fun i ↦ eraseContract digest (i = i₀)) notes pool before notes' pool')
    (sound : pool.state.Sound) (hstart : (notes i₀).listed = none) {ids : List String}
    (hids : (notes' i₀).listed = some ids) :
    HasListed platform inspection law digest i₀ pool before ids (notes' i₀).left := by
  induction noted generalizing ids with
  | start => exact absurd (hstart.symm.trans hids) nofun
  | @step events notes₁ pool₁ pool₂ e noted last ih =>
    by_cases hthread : e.thread = i₀
    · obtain ⟨i, c, x⟩ := e
      obtain rfl : i = i₀ := hthread
      rw [update_self] at hids ⊢
      change ((notes₁ i).after digest c _).listed = some ids at hids
      cases c with
      | lock runtimeId => exact (ih hids).snoc _
      | unlock runtimeId => exact (ih hids).unlock runtimeId x
      | listRecords =>
        obtain ⟨records, hanswer, hlists⟩ := @listRecords_respond platform inspection law digest
          pool₁.state (sound_of_run noted.run sound) x
        simp only [hanswer, EraseNote.after, Option.some.injEq] at hids ⊢
        obtain rfl := hids
        refine ⟨events, _, [], pool₁, rfl, noted.run, rfl, rfl, ?_, ?_⟩
        · exact fun id hid hstale ↦ hid (hlists id hstale)
        · exact fun id hid ↦ absurd hid not_mem_nil
      | _ => exact (ih hids).snoc _
    · rw [update_of_ne (Ne.symm hthread)] at hids ⊢
      exact (ih hids).snoc e

/--
In every interleaving of the removal of an artifact with requests, in which no record on the
artifact is made for a runtime that the removal has passed, no record on it that never claimed an
activation is left once the removal has returned.
-/
theorem nothing_stale_after_erase (platform : DriverPlatform) (config : RuntimeServiceConfig)
    (inspection : String → ImageInspect) (law : ServiceLaw) (digest : String) (i₀ : ι)
    (requests : ι → RuntimeRequest) (s : ServiceState) (sound : s.Sound)
    (events : List (Event serviceSignature ServiceChoice ι))
    (pool' : Pool serviceSignature ServiceError ServiceState ι)
    (run : Pool.Run (driverHost platform inspection law)
      (whileErasing platform config digest i₀ requests s) events pool')
    (inTime : ∀ before e after pool₁, events = before ++ e :: after →
      Pool.Run (driverHost platform inspection law)
        (whileErasing platform config digest i₀ requests s) before pool₁ →
      ¬ ClaimsBehind platform inspection law digest i₀
        (whileErasing platform config digest i₀ requests s) before e pool₁.state)
    (returned : pool'.threads i₀ = .pure ()) (runtimeId : String) :
    ¬ pool'.state.LeavesStale digest runtimeId := by
  have hstands : (whileErasing platform config digest i₀ requests s).Stands
      (driverHost platform inspection law) (fun i ↦ eraseContract digest (i = i₀))
      (fun i r h s ↦ i = i₀ → r = .ok () → ∀ runtimeId, h.Passed runtimeId ∧
        ¬ s.LeavesStale digest runtimeId) Separate fun _ ↦ {} := by
    refine ⟨fun i ↦ ?_, sound, fun _ _ hheld ↦ absurd hheld not_mem_nil,
      fun _ _ _ hheld ↦ absurd hheld not_mem_nil⟩
    by_cases hi : i = i₀
    · have hthread : (whileErasing platform config digest i₀ requests s).threads i =
          eraseThread digest := hi ▸ whileErasing_self
      rw [hthread]
      exact (among_eraseThread hi).imp fun r h s hdone _ ↦ hdone
    · rw [whileErasing_of_ne hi]
      exact (among_request (requests i)).imp fun r h s _ hsame ↦ absurd hsame hi
  have hassume : ∀ before e after pool₁ notes₁, events = before ++ e :: after →
      Pool.Noted (driverHost platform inspection law) (fun i ↦ eraseContract digest (i = i₀))
        (fun _ ↦ {}) (whileErasing platform config digest i₀ requests s) before notes₁ pool₁ →
      Separate notes₁ pool₁.state →
      InTime digest i₀ notes₁ e.thread e.call e.choice pool₁.state := by
    intro before e after pool₁ notes₁ hsplit noted hjoint
    refine ⟨hjoint.sound, fun input hcall hdigest hnone ↦ ?_⟩
    rintro ⟨ids, hids, hpassed⟩
    apply inTime before e after pool₁ hsplit noted.run
    exact ⟨input, hcall, hdigest, hnone,
      (hasListed_of_noted noted sound rfl hids).passedBy hpassed⟩
  obtain ⟨notes', noted, hstands'⟩ := run.together_under erasing_team hassume hstands
  have hdone := hstands'.threads i₀
  rw [returned] at hdone
  exact (hdone rfl rfl runtimeId).2

end Together

/-! ## A claim behind the removal -/

/-- Anything may happen. -/
abbrev anyHost (platform : DriverPlatform) (inspection : String → ImageInspect) :
    Machine serviceSignature ServiceError ServiceState ServiceChoice :=
  driverHost platform inspection fun _ _ _ ↦ True

/-- The program gets on with these answers. -/
abbrev Goes (platform : DriverPlatform) (inspection : String → ImageInspect) {α : Type} :=
  Advances (α := α) (anyHost platform inspection)

section

variable {platform : DriverPlatform} {config : RuntimeServiceConfig}
  {inspection : String → ImageInspect} {s : ServiceState}

theorem advances_ok (c : ServiceCall) (x : ServiceChoice) {a : c.Answer}
    (hc : ∀ runtimeId, c ≠ .lock runtimeId)
    (hanswer : (anyHost platform inspection).respond c x s = (.ok a, s')) :
    Goes platform inspection (awaitService c) s [(c, x)] (.pure a) s' := by
  have hx : (anyHost platform inspection).permits c x s :=
    ⟨fun runtimeId hlock ↦ absurd hlock (hc runtimeId), trivial⟩
  exact Advances.ask x hx hanswer

theorem advances_error (c : ServiceCall) (x : ServiceChoice) {e : ServiceError}
    (hc : ∀ runtimeId, c ≠ .lock runtimeId)
    (hanswer : (anyHost platform inspection).respond c x s = (.error e, s')) :
    Goes platform inspection (awaitService c) s [(c, x)] (.throw e) s' := by
  have hx : (anyHost platform inspection).permits c x s :=
    ⟨fun runtimeId hlock ↦ absurd hlock (hc runtimeId), trivial⟩
  exact Advances.ask x hx hanswer

theorem advances_resolve {digest : String} {staged : StagedArtifactRecord}
    (hstaged : resolve true s.store.file digest = some staged) :
    Goes platform inspection (resolveStagedArtifact digest) s
      [(.store (.resolve digest), {})] (.pure staged) s := by
  have hcall : Goes platform inspection
      (awaitService (.store (.resolve digest))) s [(.store (.resolve digest), {})]
      (.pure (some staged)) s := by
    apply advances_ok (.store (.resolve digest)) {} nofun
    rw [← hstaged]
    simp [driverHost, ServiceState.serve, StoreState.serve, ServiceState.settled, StoreState.settled]
  exact hcall.bind _

theorem advances_serviceNow : Goes platform inspection serviceNow s [(.clock, {})] (.pure 1) s := by
  have hcall : Goes platform inspection
      (awaitService .clock) s [(.clock, {})] (.pure 1000) s := advances_ok _ _ nofun rfl
  exact hcall.bind _

/-- The claim that an empty ledger takes. -/
def claimedLedger (input : ClaimInput) (replicaId : String) : LedgerFile :=
  (emptyLedger.put input.runtimeId (input.record replicaId)).claimSlot input.generationId
    input.runtimeId

/-- A request for a new runtime is claimed, and fails when its container is created. -/
theorem advances_ensureReadyLocked {request : Json} {staged : StagedArtifactRecord}
    {store : StoreState} {locks : List String}
    (hstaged : resolve true store.file (artifactDigestOf request) = some staged) :
    ∃ calls replicaId, Goes platform inspection (ensureReadyLocked platform config request)
      { ledger := .stored emptyLedger, store, locks } calls (.throw (.error "no such image"))
      { ledger := .stored (claimedLedger (claimInput platform config request staged 1) replicaId)
        store, locks } := by
  let input := claimInput platform config request staged 1
  let replicaId := (({} : ServiceChoice).ledgerPlatform platform).randomUUID input.runtimeId
  let s : ServiceState := { ledger := .stored emptyLedger, store, locks }
  let s' : ServiceState := { ledger := .stored (claimedLedger input replicaId), store, locks }
  have hresolve : Goes platform inspection (resolveStagedArtifact (artifactDigestOf request)) s
      [(.store (.resolve (artifactDigestOf request)), {})] (.pure staged) s :=
    advances_resolve hstaged
  have hget : Goes platform inspection
      (awaitService (.getByRuntimeId (computeRuntimeId platform request))) s
      [(.getByRuntimeId (computeRuntimeId platform request), {})] (.pure none) s :=
    advances_ok _ _ nofun rfl
  have hclaim : Goes platform inspection (awaitLedger (.claim input)) s
      [(.ledger (.claim input), {})] (.pure (input.record replicaId)) s' := advances_ok (.ledger (.claim input)) _ nofun rfl
  have hprepare : Goes platform inspection
      (awaitService (.prepareBroker replicaId)) s' [(.prepareBroker replicaId, {})] (.pure ()) s' := advances_ok _ _ nofun rfl
  have hnetwork : Goes platform inspection (awaitService .ensureNetwork) s'
      [(.ensureNetwork, {})] (.pure ()) s' := advances_ok _ _ nofun rfl
  have hinspect (name : String) : Goes platform inspection (inspectByName name) s'
      [(.inspectContainer name, {})] (.pure none) s' := by
    have hcall : Goes platform inspection (awaitService (.inspectContainer name)) s'
        [(.inspectContainer name, {})] (.pure none) s' := advances_ok _ _ nofun rfl
    exact hcall.settle.bind _
  have hcreate (spec : CreateSpec) : Goes platform inspection
      (awaitService (.createContainer spec)) s'
      [(.createContainer spec, { failure := some (.error "no such image"), takesEffect := false })]
      (.throw (.error "no such image")) s' := advances_error _ _ nofun rfl
  apply Exists.intro
  apply Exists.intro replicaId
  apply hresolve.andThen
  apply hget.andThen
  apply advances_serviceNow.andThen
  apply hclaim.andThen
  apply hprepare.andThen
  apply Advances.fails
  apply hnetwork.andThen
  apply Advances.fails
  apply (hinspect _).andThen
  exact (hcreate _).fails

/-- Only this request is served: it takes its lock, claims its runtime and fails. -/
theorem advances_ensureReady {raw request : Json} {staged : StagedArtifactRecord}
    {store : StoreState} (hvalid : validateEnsureReady platform raw = .ok request)
    (hstaged : resolve true store.file (artifactDigestOf request) = some staged) :
    ∃ calls replicaId, Goes platform inspection
      ((RuntimeRequest.ensureReady raw).program platform config)
      { ledger := .stored emptyLedger, store } calls (.throw (.error "no such image"))
      { ledger := .stored (claimedLedger (claimInput platform config request staged 1) replicaId)
        store } := by
  let runtimeId := computeRuntimeId platform request
  obtain ⟨calls, replicaId, hlocked⟩ :=
    @advances_ensureReadyLocked platform config inspection request staged store [runtimeId] hstaged
  have hprogram : (RuntimeRequest.ensureReady raw).program platform config =
      withRuntimeLock runtimeId (ensureReadyLocked platform config request) >>= fun _ ↦ .pure () := by
    simp only [RuntimeRequest.program, ensureReady, hvalid]
    rfl
  have hlock : Goes platform inspection (awaitService (.lock runtimeId))
      { ledger := .stored emptyLedger, store } [(.lock runtimeId, {})] (.pure ())
      { ledger := .stored emptyLedger, store, locks := [runtimeId] } := by
    have hpermits : (anyHost platform inspection).permits (.lock runtimeId) {}
        { ledger := .stored emptyLedger, store } := ⟨fun _ _ ↦ not_mem_nil, trivial⟩
    exact Advances.ask _ hpermits rfl
  have hunlock (ledger : LedgerFile) : Goes platform inspection (awaitService (.unlock runtimeId))
      { ledger := .stored ledger, store, locks := [runtimeId] } [(.unlock runtimeId, {})] (.pure ())
      { ledger := .stored ledger, store } := by
    apply advances_ok (.unlock runtimeId) {} nofun
    simp [driverHost, ServiceState.serve, ServiceState.settled]
  apply Exists.intro
  apply Exists.intro replicaId
  rw [hprogram]
  apply Advances.fails
  apply hlock.andThen
  apply hlocked.settle.andThen
  exact (hunlock _).andThen .refl

/-! The removal, up to the moment when the image has gone -/

theorem advances_delegate (platform : DriverPlatform) {α : Type} {law : StoreLaw} {p p' : Stored α} {store store' : StoreState}
    {calls : List (StoreCall × StoreChoice)}
    (h : Advances (dockerHost inspection law) p store calls p' store') (s : ServiceState)
    (hstore : s.store = store) :
    ∃ calls', Goes platform inspection (p.delegate fun c ↦ awaitService (.store c)) s calls'
      (p'.delegate fun c ↦ awaitService (.store c)) { s with store := store' } := by
  induction h generalizing s with
  | refl =>
    subst hstore
    exact ⟨[], .refl⟩
  | @step c k store store' calls rest x hx _ ih =>
    subst hstore
    obtain ⟨calls', hrest⟩ :=
      ih { s with store := ((dockerHost inspection law).respond c x s.store).2 } rfl
    have hcall : Goes platform inspection (awaitService (.store c)).settle s
        [(.store c, { store := x })] (.pure ((dockerHost inspection law).respond c x s.store).1)
        { s with store := ((dockerHost inspection law).respond c x s.store).2 } := by
      have hpermits : (anyHost platform inspection).permits (.store c) { store := x } s :=
        ⟨fun _ ↦ nofun, trivial⟩
      exact Advances.settle_ask _ hpermits rfl
    exact ⟨_, hcall.andThen hrest⟩

/-- What is left of the erasing when Docker has removed the image. -/
def removedImage (digest imageRef : String) : Stored ArtifactAbsent := do
  let image ← awaitStore (.inspectImage imageRef)
  Program.throwIf (image.isSome = true)
    (.artifactError "Docker still exposes the staged image after removal")
  awaitStore (.recordRemoved digest)
  let checkedAt ← storeNow
  .pure { digest, removed := true, checkedAt }

/-- Nothing but the artifact is staged, and its image is there. -/
def StagedArtifactRecord.alone (staged : StagedArtifactRecord) : StoreState where
  file := some (emptyIndex.put staged.digest staged)
  shown := [staged.imageRef]

/-- The image of the artifact has gone. -/
def StagedArtifactRecord.bare (staged : StagedArtifactRecord) : StoreState where
  file := some (emptyIndex.put staged.digest staged)

theorem resolve_put (staged : StagedArtifactRecord) :
    resolve true (some (emptyIndex.put staged.digest staged)) staged.digest = some staged := by
  simp [resolve, readIndex]

abbrev dockerAnyhow (inspection : String → ImageInspect) :
    Machine storeSignature ServiceError StoreState StoreChoice :=
  dockerHost inspection fun _ _ _ ↦ True

theorem advances_store (c : StoreCall) (x : StoreChoice) {a : c.Answer} {store store' : StoreState}
    (hanswer : (dockerAnyhow inspection).respond c x store = (.ok a, store')) :
    Advances (dockerAnyhow inspection) (awaitStore c) store [(c, x)] (.pure a) store' := by
  have hpermits : (dockerAnyhow inspection).permits c x store := trivial
  exact Advances.ask x hpermits hanswer

theorem advances_remove (staged : StagedArtifactRecord) :
    ∃ calls, Advances (dockerAnyhow inspection) (LocalRuntime.remove staged.digest) staged.alone
      calls (removedImage staged.digest staged.imageRef) staged.bare := by
  have hresolve : Advances (dockerAnyhow inspection) (awaitStore (.resolve staged.digest))
      staged.alone [(.resolve staged.digest, {})] (.pure (some staged)) staged.alone := by
    apply advances_store
    rw [← resolve_put staged]
    rfl
  have hremove : Advances (dockerAnyhow inspection) (awaitStore (.removeImage staged.imageRef))
      staged.alone [(.removeImage staged.imageRef, {})] (.pure ()) staged.bare := by
    apply advances_store
    simp [dockerHost, StoreState.serve, StoreState.settled, StagedArtifactRecord.alone,
      bare, StoreState.without, StoreChoice.answer]
  apply Exists.intro
  apply hresolve.andThen
  exact hremove.bind _

theorem advances_removedImage (staged : StagedArtifactRecord) :
    ∃ calls answer store, Advances (dockerAnyhow inspection)
      (removedImage staged.digest staged.imageRef) staged.bare calls (.pure answer) store := by
  have hinspect : Advances (dockerAnyhow inspection) (awaitStore (.inspectImage staged.imageRef))
      staged.bare [(.inspectImage staged.imageRef, {})] (.pure none) staged.bare := by
    apply advances_store
    simp [dockerHost, StoreState.serve, StoreState.settled, bare,
      StoreState.inspect, StoreChoice.answer]
  have hrecord : Advances (dockerAnyhow inspection) (awaitStore (.recordRemoved staged.digest))
      staged.bare [(.recordRemoved staged.digest, {})] (.pure ())
      { file := some ((emptyIndex.put staged.digest staged).drop staged.digest) } := by
    apply advances_store
    simp [dockerHost, StoreState.serve, StoreState.settled, bare,
      StoreState.recordRemoved, resolve, readIndex]
  have hnow (store : StoreState) : Advances (dockerAnyhow inspection) storeNow store
      [(.clock, {})] (.pure 1) store := by
    have hclock : Advances (dockerAnyhow inspection) (awaitStore .clock) store [(.clock, {})]
        (.pure 1) store := by
      apply advances_store
      simp [dockerHost, StoreState.serve, StoreState.settled]
    exact hclock.bind _
  apply Exists.intro
  apply Exists.intro
  apply Exists.intro
  apply hinspect.andThen
  apply hrecord.andThen
  exact (hnow _).bind _

/-- The removal comes to where it waits for Docker to confirm that the image has gone. -/
theorem advances_eraseThread (staged : StagedArtifactRecord) :
    ∃ calls, Goes platform inspection (eraseThread staged.digest)
      { ledger := .stored emptyLedger, store := staged.alone } calls
      ((removedImage staged.digest staged.imageRef).delegate (fun c ↦ awaitService (.store c)) >>=
        fun _ ↦ .pure ())
      { ledger := .stored emptyLedger, store := staged.bare } := by
  obtain ⟨calls, hremove⟩ := @advances_remove inspection staged
  obtain ⟨calls', herase⟩ := advances_delegate platform hremove
    { ledger := .stored emptyLedger, store := staged.alone } rfl
  have hlist : Goes platform inspection (awaitService .listRecords)
      { ledger := .stored emptyLedger, store := staged.alone } [(.listRecords, {})] (.pure [])
      { ledger := .stored emptyLedger, store := staged.alone } := advances_ok _ _ nofun rfl
  apply Exists.intro
  apply Advances.bind
  apply hlist.andThen
  exact herase

theorem record_claimedLedger (input : ClaimInput) (replicaId : String) :
    (claimedLedger input replicaId).record input.runtimeId = some (input.record replicaId) := by
  unfold claimedLedger claimSlot
  split <;> simp

/-- A request that is served while Docker removes the image leaves its claim behind. -/
theorem overtaken {raw request : Json} (staged : StagedArtifactRecord)
    (hvalid : validateEnsureReady platform raw = .ok request)
    (hdigest : artifactDigestOf request = staged.digest) :
    ∃ events pool', Pool.Run (anyHost platform inspection)
        (whileErasing platform config staged.digest true (fun _ ↦ .ensureReady raw)
          { ledger := .stored emptyLedger, store := staged.alone }) events pool' ∧
      pool'.threads true = .pure () ∧
      pool'.threads false = .throw (.error "no such image") ∧
      pool'.state.LeavesStale staged.digest (computeRuntimeId platform request) := by
  obtain ⟨calls₁, herase⟩ := @advances_eraseThread platform inspection staged
  obtain ⟨calls₂, replicaId, hready⟩ := @advances_ensureReady platform config inspection raw request
    staged staged.bare hvalid (hdigest ▸ resolve_put staged)
  obtain ⟨calls, answer, store, hremoved⟩ := @advances_removedImage inspection staged
  let ledger := claimedLedger (claimInput platform config request staged 1) replicaId
  obtain ⟨calls₃, hdone⟩ := advances_delegate platform hremoved
    { ledger := .stored ledger, store := staged.bare } rfl
  let start := whileErasing platform config staged.digest true (fun _ ↦ .ensureReady raw)
    { ledger := .stored emptyLedger, store := staged.alone }
  have hstart : start.threads true = eraseThread staged.digest := whileErasing_self
  have hother : start.threads false = (RuntimeRequest.ensureReady raw).program platform config :=
    whileErasing_of_ne nofun
  obtain ⟨pool₁, run₁, hfirst, hleft, hstate₁⟩ := herase.onwards .start hstart rfl
  obtain ⟨pool₂, run₂, hfailed, hkept, hstate₂⟩ :=
    hready.onwards run₁ ((hleft false nofun).trans hother) hstate₁
  obtain ⟨pool₃, run₃, hreturned, hkept', hstate₃⟩ :=
    (hdone.bind fun _ ↦ Program.pure ()).onwards run₂ ((hkept true nofun).trans hfirst) hstate₂
  refine ⟨_, pool₃, run₃, hreturned, (hkept' false nofun).trans hfailed, ?_⟩
  rw [hstate₃]
  exact ⟨_, record_claimedLedger _ _, rfl, rfl⟩

/-! A removal on its own -/

theorem sound_claimedLedger (input : ClaimInput) {replicaId : String} (minted : replicaId ≠ "") :
    (claimedLedger input replicaId).Sound :=
  (Change.claimed input replicaId minted rfl).sound sound_empty

theorem listed_claimedLedger (input : ClaimInput) (replicaId : String) :
    (claimedLedger input replicaId).byRuntimeId.entries.map (fun e ↦ e.2) =
      [input.record replicaId] := by
  unfold claimedLedger claimSlot
  split <;> rfl

/-- A removal on its own finds the claim and tears it down. -/
theorem advances_erase_claimed (input : ClaimInput) {replicaId : String} (minted : replicaId ≠ "") :
    ∃ calls s', Goes platform inspection (eraseThread input.artifactDigest)
      { ledger := .stored (claimedLedger input replicaId) } calls (.pure ()) s' := by
  have hclean := (sound_claimedLedger input minted).clean
  let s : ServiceState := { ledger := .stored (claimedLedger input replicaId) }
  let held : ServiceState := { s with locks := [input.runtimeId] }
  let emptied : ServiceState :=
    { held with ledger := .stored (((claimedLedger input replicaId).dropRecord
        input.runtimeId).freeSlot input.generationId input.runtimeId) }
  have hlist : Goes platform inspection (awaitService .listRecords) s
      [(.listRecords, {})] (.pure [input.record replicaId]) s := by
    apply advances_ok .listRecords _ (by simp)
    simp only [s, driverHost, ServiceState.serve, ServiceState.settled, onLedger,
      listRecords, exec_bind, exec_readLedger _ hclean, ← listed_claimedLedger]
    rfl
  have hlock : Goes platform inspection (awaitService (.lock input.runtimeId)) s
      [(.lock input.runtimeId, {})] (.pure ()) held := by
    have hpermits : (anyHost platform inspection).permits (.lock input.runtimeId) {} s :=
      ⟨fun _ _ ↦ not_mem_nil, trivial⟩
    exact Advances.ask _ hpermits rfl
  have hget : Goes platform inspection
      (awaitService (.getByRuntimeId input.runtimeId)) held [(.getByRuntimeId input.runtimeId, {})]
      (.pure (some (input.record replicaId))) held := by
    apply advances_ok (.getByRuntimeId input.runtimeId) _ (by simp)
    simp only [s, held, driverHost, ServiceState.serve, ServiceState.settled,
      onLedger, getByRuntimeId, exec_bind, exec_readLedger _ hclean,
      ← record_claimedLedger input replicaId]
    rfl
  have hinspect : Goes platform inspection (inspectByName input.runtimeId) held
      [(.inspectContainer input.runtimeId, {})] (.pure none) held := by
    have hcall : Goes platform inspection (awaitService (.inspectContainer input.runtimeId)) held
        [(.inspectContainer input.runtimeId, {})] (.pure none) held := advances_ok _ _ (by simp) rfl
    exact hcall.settle.bind _
  have hcleanup : Goes platform inspection (awaitService (.cleanupBroker replicaId))
      held [(.cleanupBroker replicaId, {})] (.pure ()) held := advances_ok _ _ (by simp) rfl
  have hdelete : Goes platform inspection (awaitLedger (.deleteByRuntimeId input.runtimeId)) held
      [(.ledger (.deleteByRuntimeId input.runtimeId), {})] (.pure true) emptied := by
    apply advances_ok (.ledger (.deleteByRuntimeId input.runtimeId)) _ (by simp)
    simp only [s, held, emptied, driverHost, ServiceState.serve, ServiceState.settled,
      onLedger, LedgerCall.perform, deleteByRuntimeId, exec_bind,
      exec_readLedger _ hclean, record_claimedLedger]
    rfl
  have hunlock : Goes platform inspection
      (awaitService (.unlock input.runtimeId)) emptied [(.unlock input.runtimeId, {})] (.pure ())
      { emptied with locks := [] } := by
    apply advances_ok (.unlock input.runtimeId) _ (by simp)
    simp [emptied, held, s, driverHost, ServiceState.serve, ServiceState.settled]
  have hresolve : Goes platform inspection
      (awaitService (.store (.resolve input.artifactDigest))) { emptied with locks := [] }
      [(.store (.resolve input.artifactDigest), {})] (.pure none) { emptied with locks := [] } :=
    advances_ok _ _ (by simp) rfl
  have hclock : Goes platform inspection (awaitService (.store .clock))
      { emptied with locks := [] } [(.store .clock, {})] (.pure 1) { emptied with locks := [] } :=
    advances_ok _ _ (by simp) rfl
  have hteardown : ∃ calls, Goes platform inspection
      (teardownRecorded (input.record replicaId)) held calls (.pure ()) emptied := by
    apply Exists.intro
    apply hinspect.andThen
    apply hcleanup.andThen
    exact hdelete.bind _
  obtain ⟨calls, hteardown⟩ := hteardown
  have hvisit : ∃ calls, Goes platform inspection
      (eraseRuntime input.artifactDigest (input.record replicaId)) s calls (.pure ())
      { emptied with locks := [] } := by
    have hbody := hget.andThen (f := fun current ↦
      Program.forSome current fun current : RuntimeRecord ↦
        Program.onlyIf (current.activationRequestHash = none) (teardownRecorded current)) hteardown
    apply Exists.intro
    rw [eraseRuntime, Program.onlyIf, if_pos ⟨rfl, rfl⟩]
    apply hlock.andThen
    apply hbody.settle.andThen
    exact hunlock.andThen .refl
  obtain ⟨calls', hvisit⟩ := hvisit
  apply Exists.intro
  apply Exists.intro { emptied with locks := [] }
  apply Advances.andThen
  · apply hlist.andThen
    apply Advances.andThen (hvisit.andThen .refl)
    apply Advances.andThen hresolve.settle
    apply Advances.andThen hclock.settle
    exact .refl
  · exact .refl

theorem asks_eraseThread {P : ServiceCall → Prop} (digest : String) (hquiet : ∀ c, c.Quiet → P c)
    (hlist : P .listRecords) (hlock : ∀ runtimeId, P (.lock runtimeId))
    (hunlock : ∀ runtimeId, P (.unlock runtimeId))
    (hdelete : ∀ runtimeId, P (.ledger (.deleteByRuntimeId runtimeId))) :
    Asks P (eraseThread digest) := by
  apply Asks.bind
  · apply (Asks.ask hlist).bind
    intro records
    apply Asks.bind
    · apply Asks.foldEach
      intro _ record _
      apply Asks.onlyIf
      apply (Asks.ask (hlock _)).bind
      intro _
      apply Asks.finallyDo
      · apply (Asks.ask (hquiet (.getByRuntimeId _) trivial)).bind
        intro current
        apply Asks.forSome
        intro current
        exact Asks.onlyIf (asks_teardownRecorded hquiet current (hdelete _))
      · exact Asks.ask (hunlock _)
    · exact fun _ ↦ (quiet_eraseArtifact digest).imp hquiet
  · exact fun _ ↦ trivial

end

namespace Sample

def publicJwk : Json := .obj [("kty", .str "EC"), ("crv", .str "P-256"),
  ("x", .str "MKBCTNIcKUSDii11ySs3526iDZ8AiTo7Tu6KPAqv7D4"),
  ("y", .str "4Etl6SRW2YiLUrN5vfvVHuhp7x8PxltmWWlbbM4IFyM")]

def hash : String := "AAAAAAAAAAAAAAAAAAAAAAAAAAAAAAAAAAAAAAAAAAA"

def readyRequest : Json := .obj [("protocol_version", .num 3), ("operation", .str "ENSURE_READY"),
  ("installation_id", .str "inst-1"), ("workspace_id", .str "acme"), ("deployment_id", .str "dep-1"),
  ("listing_id", .str "notes"), ("version_id", .str "v1"), ("generation_id", .str "gen-1"),
  ("generation_number", .num 1), ("descriptor_artifact_hash", .str hash),
  ("resource_manifest_hash", .str hash), ("permission_contract_hash", .str hash),
  ("runtime_authorization", .obj [("security_mode", .str "runtime-v3"),
    ("hub_kid", .str "cn-I_WNMClehiVp51i_0VpOENW1upEerA8sEam5hn-s"), ("hub_public_jwk", publicJwk),
    ("mcp_app_id", .str "notes"), ("manifest_digest", .str "sha256:00"),
    ("allow_unsigned_preactivation_readiness", .bool true)]),
  ("artifact", .obj [("path", .str "notes.tar"), ("digest", .str "sha256:11"),
    ("size_bytes", .num 5120)]),
  ("runtime_spec", .obj [("driver_abi", .str "privos-local-runtime-driver-v1"),
    ("artifact_format", .str "oci-image-archive-v1"), ("port", .num 8080),
    ("resources", .obj [("memory_mb", .num 256), ("cpus", .num 1), ("tmp_size_mb", .num 64)])])]

/-- A platform on which the key of the request has its thumbprint. -/
def driverPlatform : DriverPlatform where
  number := fun _ ↦ none
  numberText := fun _ ↦ "1"
  sha256Hex := fun _ ↦ "00000000000000000000000000000000"
  toISOString := fun _ ↦ none
  parseDate := fun _ ↦ none
  now := 0
  sha256Base64Url := fun text ↦
    if text = canonicalJson (.obj [("crv", .str "P-256"), ("kty", .str "EC"),
      ("x", field publicJwk "x"), ("y", field publicJwk "y")]) then
      "cn-I_WNMClehiVp51i_0VpOENW1upEerA8sEam5hn-s"
    else hash
  schemaErrors := fun _ ↦ none
  isPublicKey := fun _ ↦ true
  trim := id

def runtimeServiceConfig : RuntimeServiceConfig where
  privateNetwork := "privos-local"
  pidsLimit := 256
  clusterId := "cluster"
  nodeId := "node"
  hubOrigin := "https://hub.example.com"
  brokerRoot := "/run/privos-broker"

def stagedArtifact : StagedArtifactRecord where
  digest := "sha256:11"
  sizeBytes := 5120
  manifestDigest := "sha256:22"
  manifestSizeBytes := 512
  configDigest := "sha256:33"
  imageRef := "sha256:33"
  imageUser := none
  stagedAt := 1

theorem validateEnsureReady_readyRequest :
    validateEnsureReady driverPlatform readyRequest = .ok readyRequest := by
  have haccepted :
      (validateTagged driverPlatform "operation" "ENSURE_READY" readyRequest).toBool = true := by
    decide
  unfold validateEnsureReady
  generalize validateTagged driverPlatform "operation" "ENSURE_READY" readyRequest = result
    at haccepted
  cases result with
  | error e => cases haccepted
  | ok _ => rfl

theorem artifactDigestOf_readyRequest : artifactDigestOf readyRequest = stagedArtifact.digest := by
  decide

end Sample

/-- Among requests that are not held back, a removal may return and leave a stale record. -/
theorem stale_after_erase : ¬ ∀ (ι : Type) (_ : DecidableEq ι) (platform : DriverPlatform)
    (config : RuntimeServiceConfig) (inspection : String → ImageInspect) (law : ServiceLaw)
    (digest : String) (i₀ : ι) (requests : ι → RuntimeRequest) (s : ServiceState)
    (events : List (Event serviceSignature ServiceChoice ι))
    (pool' : Pool serviceSignature ServiceError ServiceState ι), s.Sound → s.locks = [] →
    Pool.Run (driverHost platform inspection law)
      (whileErasing platform config digest i₀ requests s) events pool' →
    pool'.threads i₀ = .pure () → (∀ i c k, pool'.threads i ≠ .call c k) →
    ∀ runtimeId, ¬ pool'.state.LeavesStale digest runtimeId := by
  intro hclaim
  obtain ⟨events, pool', run, hreturned, hfailed, hstale⟩ :=
    @overtaken Sample.driverPlatform Sample.runtimeServiceConfig (fun _ ↦ ⟨"", none⟩) _ _
      Sample.stagedArtifact Sample.validateEnsureReady_readyRequest
      Sample.artifactDigestOf_readyRequest
  refine hclaim Bool inferInstance _ _ _ _ _ true _ _ events pool'
    ⟨emptyLedger, rfl, LedgerFile.sound_empty⟩ rfl run hreturned ?_ _ hstale
  intro i c k
  cases i with
  | true => rw [hreturned]; nofun
  | false => rw [hfailed]; nofun

/-- A removal with nobody else tears down a runtime that was claimed before. -/
theorem nothing_stale_after_erase_claimed : ∃ events pool',
    let start := whileErasing Sample.driverPlatform Sample.runtimeServiceConfig
      Sample.stagedArtifact.digest true (fun _ ↦ .ensureReady Sample.readyRequest)
      { ledger := .stored (claimedLedger (claimInput Sample.driverPlatform
          Sample.runtimeServiceConfig Sample.readyRequest Sample.stagedArtifact 1) "replica") }
    start.state.LeavesStale Sample.stagedArtifact.digest
        (computeRuntimeId Sample.driverPlatform Sample.readyRequest) ∧
      Pool.Run (anyHost Sample.driverPlatform fun _ ↦ ⟨"", none⟩) start events pool' ∧
      pool'.threads true = .pure () ∧
      ∀ runtimeId, ¬ pool'.state.LeavesStale Sample.stagedArtifact.digest runtimeId := by
  let input := claimInput Sample.driverPlatform Sample.runtimeServiceConfig Sample.readyRequest
    Sample.stagedArtifact 1
  obtain ⟨calls, s', herase⟩ := @advances_erase_claimed Sample.driverPlatform (fun _ ↦ ⟨"", none⟩)
    input "replica" (by decide)
  obtain ⟨pool', run, hreturned, -, -⟩ := herase.onwards (i := true) .start whileErasing_self rfl
  refine ⟨_, pool', ⟨_, record_claimedLedger _ _, rfl, rfl⟩, run, hreturned, ?_⟩
  apply nothing_stale_after_erase _ _ _ _ _ true _ _
    ⟨_, rfl, sound_claimedLedger _ (by decide)⟩ _ pool' run _ hreturned
  rintro before e after pool₁ hsplit - ⟨input', hcall, -⟩
  have hcalls := (asks_eraseThread (P := fun c ↦ ∀ input, c ≠ .ledger (.claim input))
    Sample.stagedArtifact.digest (by rintro c hc input rfl; exact hc) nofun (fun _ ↦ nofun)
    (fun _ ↦ nofun) fun _ ↦ nofun).advances herase
  have hmem : e ∈ [] ++ calls.map fun c ↦
      (⟨true, c.1, c.2⟩ : Event serviceSignature ServiceChoice Bool) := by
    rw [hsplit]
    exact mem_append_right _ mem_cons_self
  obtain ⟨call, hin, rfl⟩ := List.mem_map.mp hmem
  exact hcalls call hin input' hcall

end PrivosCluster.LocalRuntime
