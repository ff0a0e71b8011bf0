import PrivosCluster.Routing.WorkspaceSuspension

/-!
# Registrations that come late

The worker reads a host, makes its requests to Cloudflare, and then writes the state that follows
from what it has read, whatever the row has become meanwhile. So a host comes back into service when
its workspace is suspended, or the host itself, while the requests are on their way.
-/

namespace PrivosCluster.Routing

open AsyncProgram DocumentStore CfCustomHostnameWorker List AppHostRegistry

/-- The custom hostname that a result shows: the one created, or the first one listed. -/
def shownBy : (request : CloudflareRequest) → request.Result → Option CfCustomHostname
  | .list _, results => results.head?
  | .create _ _, created => some created
  | .delete _, _ => none

/-- The custom hostname that Cloudflare has shown last. -/
def shown (note : Option CfCustomHostname) :
    (c : EdgeCall) → Except JsError c.Answer → Option CfCustomHostname
  | .cloudflare request, .ok response =>
    match resultOf response with
    | .ok result => shownBy request result
    | .error _ => none
  | _, _ => note

/-- A row before and after a write of the worker, which was shown a custom hostname before. -/
inductive Settles (shown : Option CfCustomHostname) (row row' : AppHostRecord) : Prop where
  | same (state : row'.state = row.state)
  | activated {custom : CfCustomHostname} (known : shown = some custom)
    (own : custom.registryTag = some row.hostname) (origin : row.state = .pending)
    (state : row'.state = .active)
  | failed {custom : CfCustomHostname} (known : shown = some custom)
    (foreign : custom.registryTag ≠ some row.hostname)
    (origin : row.state ∈ AppHostRegistry.suspensibleStates) (state : row'.state = .failed)

/-- An update of the row of a host. -/
def writeOf (host : AppHostRecord) (update : AppHostRecord → AppHostRecord) : EdgeCall :=
  .system (.appHosts (.one (.updateOne (isOf host) update)))

/-- The calls that register a host, by what Cloudflare has shown. -/
inductive Registers (host : AppHostRecord) (shown : Option CfCustomHostname) : EdgeCall → Prop where
  | now : Registers host shown (.system (.master (.service .now)))
  | cloudflare (request : CloudflareRequest) : Registers host shown (.cloudflare request)
  | sleep (ms : Nat) : Registers host shown (.sleep ms)
  | noted (time : Time) : Registers host shown (writeOf host (notedAs time))
  | recorded {custom : CfCustomHostname} (time : Time) (known : shown = some custom)
    (own : custom.registryTag = some host.hostname) :
    Registers host shown (writeOf host (recordedAs host custom.id time))
  | failed {custom : CfCustomHostname} (time : Time) (known : shown = some custom)
    (foreign : custom.registryTag ≠ some host.hostname) :
    Registers host shown (writeOf host (failedAs time))

/-- The contract of a registration among other operations, which may do as they like. -/
def registering {ι : Type} (host : AppHostRecord) (i : Option ι) :
    Contract edgeSignature JsError Edge EdgeChoice (Option CfCustomHostname) where
  track := shown
  assumes _ _ _ := True
  rely _ _ _ := True
  ensures note c _ _ := i = none → Registers host note c
  rely_refl _ _ := trivial
  rely_trans _ _ _ _ _ _ := trivial

/-- A registration of a host among other operations. -/
def registration {ι : Type} (deps : EdgeDeps) (host : AppHostRecord)
    (tasks : ι → RegistryOperation) (s : Edge) : Pool edgeSignature JsError Edge (Option ι) where
  threads
    | none => create host >>= fun _ ↦ .pure ()
    | some i => (tasks i).program deps
  state := s

/-- A statement about every step that the registration makes in the course of these events. -/
def AtEachStep {ι : Type} [DecidableEq ι] (deps : EdgeDeps) (host : AppHostRecord)
    (tasks : ι → RegistryOperation) (s : Edge)
    (events : List (Event edgeSignature EdgeChoice (Option ι)))
    (P : Option CfCustomHostname → EdgeCall → Edge → Edge → Prop) : Prop :=
  ∀ earlier e later notes pool pool', events = earlier ++ e :: later →
    Pool.Noted (edge fun _ _ _ ↦ True) (registering host) (fun _ ↦ none)
      (registration deps host tasks s) earlier notes pool →
    Pool.Step (edge fun _ _ _ ↦ True) pool e pool' → e.thread = none →
      P (notes none) e.call pool.state pool'.state

/-- The registration changes states only as it should. -/
def SettlesRows (shown : Option CfCustomHostname) (_ : EdgeCall) (s s' : Edge) : Prop :=
  List.Forall₂ (Settles shown) s.system.appHosts.docs s'.system.appHosts.docs

/--
When a write of the registration is carried out, the row is where the registration has seen it:
suspended if it was suspended, and else waiting or in service. A row that is marked as failed only
has to be one of these, or failed already.
-/
def StillThere (host : AppHostRecord) (_ : Option CfCustomHostname) (c : EdgeCall) (s s' : Edge) :
    Prop :=
  ∀ update, c = writeOf host update →
    s'.system.appHosts.docs = updateFirst (isOf host) update s.system.appHosts.docs →
    ∀ row ∈ s.system.appHosts.docs, row.hostname = host.hostname →
      (∀ id time, update = recordedAs host id time →
        row.state ∈ AppHostRegistry.suspensibleStates ∧
          (row.state = .suspended ↔ host.state = .suspended)) ∧
        ∀ time, update = failedAs time →
          row.state ∈ AppHostRegistry.suspensibleStates ∨ row.state = .failed

/-! ## The calls of a registration -/

variable {request : CloudflareRequest} {time : Time} {custom : CfCustomHostname}

section Calls

variable {ι α β : Type} {host : AppHostRecord} {i : Option ι} {note : Option CfCustomHostname}
  {s : Edge}

/-- The end of an action that leaves this shown. -/
def Shows (Q : α → Option CfCustomHostname → Prop) :
    Except JsError α → Option CfCustomHostname → Edge → Prop :=
  onExit (fun a note _ ↦ Q a note) fun _ _ _ ↦ True

theorem shows_bind {Q : α → Option CfCustomHostname → Prop}
    {R : β → Option CfCustomHostname → Prop} {p : EdgeAction α} {f : α → EdgeAction β}
    (hp : Among (edge fun _ _ _ ↦ True) (registering host i) (Shows Q) p note s)
    (hf : ∀ a note s, Q a note →
      Among (edge fun _ _ _ ↦ True) (registering host i) (Shows R) (f a) note s) :
    Among (edge fun _ _ _ ↦ True) (registering host i) (Shows R) (p >>= f) note s := by
  apply hp.bind
  · exact hf
  · exact fun _ _ _ _ ↦ trivial

theorem shows_await {c : EdgeCall} {Q : c.Answer → Option CfCustomHostname → Prop}
    (hc : Registers host note c)
    (hQ : ∀ x s answer, (Edge.respond c x s).1 = .ok answer →
      Q answer (shown note c (.ok answer))) :
    Among (edge fun _ _ _ ↦ True) (registering host i) (Shows Q) (awaitEdge c) note s := by
  intro s' _ x _ _
  refine ⟨fun _ ↦ hc, ?_⟩
  cases hanswer : (Edge.respond c x s').1 with
  | error e =>
    simp only [edge, hanswer]
    trivial
  | ok answer =>
    simp only [edge, hanswer]
    exact hQ x s' answer hanswer

/-- What Cloudflare answers, and that it is shown. -/
def Answers (request : CloudflareRequest) (result : request.Result)
    (note : Option CfCustomHostname) : Prop :=
  note = shownBy request result ∧ ∃ x customHostnames, result = request.result x customHostnames

theorem eq_result_of_response {x : CloudflareChoice} {customHostnames : List CfCustomHostname}
    {result : request.Result} (h : resultOf (request.response x customHostnames) = .ok result) :
    result = request.result x customHostnames := by
  cases hreadable : x.readable
  · simp [resultOf, CloudflareRequest.response, hreadable] at h
  · simp only [resultOf, CloudflareRequest.response, hreadable, if_true] at h
    by_cases hok : (200 ≤ x.status ∧ x.status < 300) ∧ x.success
    · rw [if_pos hok] at h
      exact (Except.ok.inj h).symm
    · rw [if_neg hok] at h
      cases h

theorem attempts_show (left : Nat) :
    ∀ lastError note s, Among (edge fun _ _ _ ↦ True) (registering host i)
      (Shows (Answers request)) (attempts request lastError left) note s := by
  have hsleep : ∀ ms note s, Among (edge fun _ _ _ ↦ True) (registering host i)
      (Shows fun _ _ ↦ True) (awaitEdge (.sleep ms)) note s :=
    fun ms _ _ ↦ shows_await (.sleep ms) fun _ _ _ _ ↦ trivial
  induction left with
  | zero => exact fun _ _ _ ↦ trivial
  | succ left ih =>
    intro lastError note s
    have hpause : ∀ note s, Among (edge fun _ _ _ ↦ True) (registering host i)
        (Shows fun _ _ ↦ True)
        (Program.onlyIf (left ≠ 0) (awaitEdge (.sleep (backoff left)))) note s := by
      intro note s
      apply Among.onlyIf
      · exact fun _ ↦ hsleep _ _ _
      · exact fun _ ↦ trivial
    have hfetch : Among (edge fun _ _ _ ↦ True) (registering host i)
        (Shows fun response note' ↦ ∀ result, resultOf response = .ok result →
          Answers request result note') (awaitEdge (.cloudflare request)) note s := by
      apply shows_await (.cloudflare request)
      intro x s' response hresponse result hresult
      refine ⟨by simp only [shown, hresult], x.cloudflare, s'.customHostnames, ?_⟩
      simp only [Edge.respond] at hresponse
      split at hresponse
      · obtain rfl := Except.ok.inj hresponse
        exact eq_result_of_response hresult
      · cases hresponse
    apply Among.bind (R := onExit (fun r ↦ Shows (fun response note' ↦ ∀ result,
      resultOf response = .ok result → Answers request result note') r) fun _ _ _ ↦ False)
      hfetch.settle
    · intro fetched note' s' hfetched
      cases fetched with
      | ok response =>
        dsimp only
        split
        · exact shows_bind (hsleep _ _ _) fun _ _ _ _ ↦ ih _ _ _
        · cases hresult : resultOf response with
          | ok result => exact hfetched result hresult
          | error error => exact shows_bind (hpause _ _) fun _ _ _ _ ↦ ih _ _ _
      | error error => exact shows_bind (hpause _ _) fun _ _ _ _ ↦ ih _ _ _
    · exact fun _ _ _ h ↦ h.elim

theorem api_shows :
    Among (edge fun _ _ _ ↦ True) (registering host i) (Shows (Answers request)) (api request)
      note s :=
  attempts_show 5 _ _ _

/-- A write of the row; between the clock and the write nothing else is shown. -/
theorem write_shows {update : Time → AppHostRecord → AppHostRecord}
    (hwrite : ∀ time, Registers host note (writeOf host (update time))) :
    Among (edge fun _ _ _ ↦ True) (registering host i) (Shows fun _ _ ↦ True)
      (write (isOf host) update) note s := by
  intro s' _ x _ _
  refine ⟨fun _ ↦ .now, ?_⟩
  intro s'' _ x' _ _
  refine ⟨fun _ ↦ hwrite _, ?_⟩
  simp only [edge]
  cases (Edge.respond (.system (.appHosts (.one (.updateOne (isOf host) (update _))))) x'
    s'').1 with
  | ok result => trivial
  | error e => trivial

theorem register_shows :
    Among (edge fun _ _ _ ↦ True) (registering host i) (Shows fun _ _ ↦ True) (register host) note
      s := by
  have hrecord : ∀ custom note s, note = some custom → custom.registryTag = some host.hostname →
      Among (edge fun _ _ _ ↦ True) (registering host i) (Shows fun _ _ ↦ True)
        (write (isOf host) (recordedAs host custom.id) >>= fun _ ↦ .pure true) note s := by
    intro custom note s hnote hown
    apply shows_bind (write_shows fun time ↦ .recorded time hnote hown)
    exact fun _ _ _ _ ↦ trivial
  have hexisting : Among (edge fun _ _ _ ↦ True) (registering host i)
      (Shows fun existing note' ↦ note' = existing) (findExisting host.hostname) note s := by
    apply shows_bind api_shows
    exact fun results note' _ hanswers ↦ hanswers.1
  apply shows_bind hexisting
  intro existing note' s' hnote
  cases existing with
  | some existing =>
    dsimp only
    split
    next hown => exact hrecord existing note' s' hnote hown
    next hforeign =>
      apply shows_bind (write_shows fun time ↦ .failed time hnote hforeign)
      exact fun _ _ _ _ ↦ trivial
  | none =>
    apply shows_bind api_shows
    rintro created note'' s'' ⟨hshown, x, customHostnames, rfl⟩
    exact hrecord _ _ s'' hshown rfl

theorem create_shows :
    Among (edge fun _ _ _ ↦ True) (registering host i) (Shows fun _ _ ↦ True) (create host) note
      s := by
  apply Among.tryCatch (E := fun _ _ _ ↦ True)
  · exact register_shows
  · intro e note' s' _
    apply shows_bind (write_shows .noted)
    exact fun _ _ _ _ ↦ trivial

end Calls

/-! ## Runs -/

section Runs

variable {ι : Type} {deps : EdgeDeps} {host : AppHostRecord} {tasks : ι → RegistryOperation}
  {s : Edge}

theorem registration_stands : (registration deps host tasks s).Stands (edge fun _ _ _ ↦ True)
    (registering host) (fun _ _ _ _ ↦ True) (fun _ _ ↦ True) fun _ ↦ none where
  joint := trivial
  threads i := by
    cases i with
    | none =>
      have hcreate : Among (edge fun _ _ _ ↦ True) (registering host (none : Option ι))
          (Shows fun _ _ ↦ True) (create host >>= fun _ ↦ .pure ()) none s := by
        apply shows_bind create_shows
        exact fun _ _ _ _ ↦ trivial
      exact hcreate.imp fun _ _ _ _ ↦ trivial
    | some i =>
      exact Among.of_asks (AsyncProgram.Asks.any _) fun _ _ _ _ _ _ _ h ↦ nomatch h

variable [DecidableEq ι]

/-- Every thread meets its contract, and none has to be told of the others. -/
theorem registering_team : TeamUnder (edge fun _ _ _ ↦ True) (registering (ι := ι) host)
    (fun _ _ _ _ ↦ True) (fun _ _ ↦ True) fun _ _ _ _ _ ↦ True where
  stable _ _ _ _ _ _ _ := trivial
  assumes _ _ _ _ _ _ _ := trivial
  fits _ _ _ _ _ _ _ _ _ _ _ := trivial
  keeps _ _ _ _ _ _ _ _ _ := trivial

/-- Each call of the registration has one of its forms. -/
theorem registers_of_noted {events : List (Event edgeSignature EdgeChoice (Option ι))}
    {notes : Option ι → Option CfCustomHostname}
    {pool pool' : Pool edgeSignature JsError Edge (Option ι)}
    {e : Event edgeSignature EdgeChoice (Option ι)}
    (noted : Pool.Noted (edge fun _ _ _ ↦ True) (registering host) (fun _ ↦ none)
      (registration deps host tasks s) events notes pool)
    (step : Pool.Step (edge fun _ _ _ ↦ True) pool e pool') (hthread : e.thread = none) :
    Registers host (notes none) e.call := by
  have hstands := noted.together registering_team (fun _ _ _ _ _ _ _ _ ↦ trivial)
    registration_stands
  obtain ⟨hnext, hx⟩ := step
  obtain rfl := hthread
  have hthread := hstands.threads none
  rw [hnext] at hthread
  exact (hthread _ trivial _ hx trivial).1 rfl

end Runs

/-! ## Writes of the registration -/

section Writes

variable {host row : AppHostRecord} {note : Option CfCustomHostname}

/-- An update of one row either takes place or it does not. -/
theorem docs_updateOne {α : Type} [DecidableEq α] {keys : α → List IndexKey}
    (filter : α → Bool) (update : α → α) (x : Choice) (c : Collection α keys) :
    (serveBulk (.one (.updateOne filter update)) x c).2.docs = c.docs ∨
      (serveBulk (.one (.updateOne filter update)) x c).2.docs =
        updateFirst filter update c.docs := by
  have happly : (c.apply x.pick (.updateOne filter update)).2.docs = c.docs ∨
      (c.apply x.pick (.updateOne filter update)).2.docs = updateFirst filter update c.docs := by
    simp only [Collection.apply]
    split
    · exact .inl rfl
    · exact (Collection.put_docs ..).symm
  unfold serveBulk
  cases x.fault with
  | refused => exact .inl rfl
  | lost | none => exact happly

/-- A relation between the rows before and after an update of the row of a host. -/
theorem forall₂_updateFirst_isOf {R : AppHostRecord → AppHostRecord → Prop}
    {update : AppHostRecord → AppHostRecord} (hrefl : ∀ row, R row row)
    (rows : Collection AppHostRecord appHostKeys) :
    List.Forall₂ R rows.docs (updateFirst (isOf host) update rows.docs) ↔
      ∀ row ∈ rows.docs, row.hostname = host.hostname → R row (update row) := by
  have hids : (rows.docs.map AppHostRecord.hostname).Nodup := rows.ids_nodup appHostIdentity
  have hfilter : ∀ row, isOf host row → row.hostname = host.hostname :=
    fun _ h ↦ beq_iff_eq.mp h
  rw [updateFirst_eq_map hids hfilter, forall₂_map_right_iff, forall₂_same]
  apply forall₂_congr
  intro row _
  by_cases hrow : row.hostname = host.hostname
  · simp [isOf, hrow]
  · simp [isOf, hrow, hrefl]

theorem host_state_cases (hhost : isToCreate host) :
    host.state = .pending ∨ host.state = .active ∨ host.state = .suspended := by
  simp only [isToCreate, Bool.and_eq_true, contains_iff_mem] at hhost
  simpa [suspensibleStates] using hhost.1.2

/-- What recording a custom hostname tells of the row before it. -/
theorem stillThere_of_recorded (hhost : isToCreate host) {id : String}
    (h : Settles note row (recordedAs host id time row)) :
    row.state ∈ suspensibleStates ∧
      (row.state = .suspended ↔ host.state = .suspended) := by
  have hstate : (recordedAs host id time row).state =
      if host.state = .pending then .active else host.state := rfl
  obtain hpending | hactive | hsuspended := host_state_cases hhost
  · rw [if_pos hpending] at hstate
    cases h with
    | same state =>
      have hrow : row.state = .active := state.symm.trans hstate
      simp [hrow, hpending, suspensibleStates]
    | activated known own origin state =>
      simp [origin, hpending, suspensibleStates]
    | failed known foreign origin state => exact nomatch hstate.symm.trans state
  · rw [hactive] at hstate
    cases h with
    | same state =>
      have hrow : row.state = .active := state.symm.trans hstate
      simp [hrow, hactive, suspensibleStates]
    | activated known own origin state =>
      simp [origin, hactive, suspensibleStates]
    | failed known foreign origin state => exact nomatch hstate.symm.trans state
  · rw [hsuspended] at hstate
    cases h with
    | same state =>
      have hrow : row.state = .suspended := state.symm.trans hstate
      simp [hrow, hsuspended, suspensibleStates]
    | activated known own origin state => exact nomatch hstate.symm.trans state
    | failed known foreign origin state => exact nomatch hstate.symm.trans state

theorem settles_recorded (hhost : isToCreate host) (hknown : note = some custom)
    (hown : custom.registryTag = some row.hostname)
    (hservice : row.state ∈ suspensibleStates)
    (hsame : row.state = .suspended ↔ host.state = .suspended) :
    Settles note row (recordedAs host custom.id time row) := by
  have hstate : (recordedAs host custom.id time row).state =
      if host.state = .pending then .active else host.state := rfl
  by_cases hsuspended : host.state = .suspended
  · rw [hsuspended] at hstate
    exact .same (hstate.trans (hsame.mpr hsuspended).symm)
  · have hactive : (recordedAs host custom.id time row).state = .active := by
      obtain h | h | h := host_state_cases hhost
      · rwa [if_pos h] at hstate
      · rwa [h] at hstate
      · exact absurd h hsuspended
    have hrow : row.state = .pending ∨ row.state = .active := by
      have hnot : row.state ≠ .suspended := fun h ↦ hsuspended (hsame.mp h)
      simpa [suspensibleStates, hnot] using hservice
    obtain hrow | hrow := hrow
    · exact .activated hknown hown hrow hactive
    · exact .same (hactive.trans hrow.symm)

theorem settles_failed (hknown : note = some custom)
    (hforeign : custom.registryTag ≠ some row.hostname)
    (hrow : row.state ∈ suspensibleStates ∨ row.state = .failed) :
    Settles note row (failedAs time row) := by
  obtain hservice | hfailed := hrow
  · exact .failed hknown hforeign hservice rfl
  · exact .same hfailed.symm

theorem stillThere_of_failed (h : Settles note row (failedAs time row)) :
    row.state ∈ suspensibleStates ∨ row.state = .failed := by
  cases h with
  | same state => exact .inr state.symm
  | activated known own origin state => exact nomatch state
  | failed known foreign origin state => exact .inl origin

/-- One call of the registration. -/
theorem settlesRows_iff (hhost : isToCreate host) {c : EdgeCall} (x : EdgeChoice) (s : Edge)
    (h : Registers host note c) :
    SettlesRows note c s (Edge.respond c x s).2 ↔
      StillThere host note c s (Edge.respond c x s).2 := by
  have hrefl : ∀ row, Settles note row row := fun _ ↦ .same rfl
  constructor
  · rintro hrows update rfl hdocs row hrow hhostname
    unfold SettlesRows at hrows
    rw [hdocs] at hrows
    have hsettles := (forall₂_updateFirst_isOf hrefl _).mp hrows row hrow hhostname
    constructor
    · rintro id time rfl
      exact stillThere_of_recorded hhost hsettles
    · rintro time rfl
      exact stillThere_of_failed hsettles
  · intro hthere
    have hwrite : ∀ update, c = writeOf host update →
        ((Edge.respond c x s).2.system.appHosts.docs =
            updateFirst (isOf host) update s.system.appHosts.docs →
          ∀ row ∈ s.system.appHosts.docs, row.hostname = host.hostname →
            Settles note row (update row)) → SettlesRows note c s (Edge.respond c x s).2 := by
      rintro update rfl hsettles
      obtain hdocs | hdocs := docs_updateOne (isOf host) update x.system s.system.appHosts
      · change List.Forall₂ (Settles note) _ (serveBulk _ x.system s.system.appHosts).2.docs
        rw [hdocs]
        exact forall₂_same.mpr fun row _ ↦ hrefl row
      · change List.Forall₂ (Settles note) _ (serveBulk _ x.system s.system.appHosts).2.docs
        rw [hdocs]
        exact (forall₂_updateFirst_isOf hrefl _).mpr (hsettles hdocs)
    cases h with
    | now => exact forall₂_same.mpr fun row _ ↦ hrefl row
    | sleep ms => exact forall₂_same.mpr fun row _ ↦ hrefl row
    | cloudflare request =>
      unfold SettlesRows
      rw [respond_cloudflare_system]
      exact forall₂_same.mpr fun row _ ↦ hrefl row
    | noted time => exact hwrite _ rfl fun _ _ _ _ ↦ .same rfl
    | recorded time known own =>
      apply hwrite _ rfl
      intro hdocs row hrow hhostname
      obtain ⟨hservice, hsame⟩ := (hthere _ rfl hdocs row hrow hhostname).1 _ _ rfl
      exact settles_recorded hhost known (hhostname ▸ own) hservice hsame
    | failed time known foreign =>
      apply hwrite _ rfl
      intro hdocs row hrow hhostname
      have hstill := (hthere _ rfl hdocs row hrow hhostname).2 _ rfl
      exact settles_failed known (hhostname ▸ foreign) hstill

end Writes

/--
In every run of a registration beside other operations, the registration takes the row of its host
only from PENDING to ACTIVE, for a custom hostname of our own, and from a state in service to
FAILED, for a foreign one, exactly if at each of its writes the row is still there.
-/
theorem settles_iff {ι : Type} [DecidableEq ι] (deps : EdgeDeps) (host : AppHostRecord)
    (hhost : isToCreate host = true) (tasks : ι → RegistryOperation) (s : Edge)
    (events : List (Event edgeSignature EdgeChoice (Option ι))) :
    AtEachStep deps host tasks s events SettlesRows ↔
      AtEachStep deps host tasks s events (StillThere host) := by
  have hstep : ∀ {earlier notes pool pool'} {e : Event edgeSignature EdgeChoice (Option ι)},
      Pool.Noted (edge fun _ _ _ ↦ True) (registering host) (fun _ ↦ none)
        (registration deps host tasks s) earlier notes pool →
      Pool.Step (edge fun _ _ _ ↦ True) pool e pool' → e.thread = none →
        (SettlesRows (notes none) e.call pool.state pool'.state ↔
          StillThere host (notes none) e.call pool.state pool'.state) := by
    intro earlier notes pool pool' e noted step hthread
    have hregisters := registers_of_noted noted step hthread
    obtain ⟨hnext, hx⟩ := step
    exact settlesRows_iff hhost _ _ hregisters
  constructor
  · intro h earlier e later notes pool pool' hsplit noted step hthread
    have hsettles := h earlier e later notes pool pool' hsplit noted step hthread
    exact (hstep noted step hthread).mp hsettles
  · intro h earlier e later notes pool pool' hsplit noted step hthread
    have hthere := h earlier e later notes pool pool' hsplit noted step hthread
    exact (hstep noted step hthread).mpr hthere

namespace Sample

/-- A custom host that waits for its custom hostname. -/
def waitingRow : AppHostRecord := { customRow with state := .pending, cfHostnameId := none }

def waiting : Edge where
  system := { vacant with appHosts := ⟨[waitingRow], by decide⟩ }
  customHostnames := []
  issued := []

/-- The workspace is suspended while its host is registered. -/
def suspending (_ : Unit) : RegistryOperation := .setWorkspaceHostsSuspended "acme" true

/-- The requests to Cloudflare, then the suspension, then the registration up to its write. -/
def overtakenSchedule : List (Option Unit) := [none, none] ++ List.replicate 6 (some ()) ++ [none]

def overtaken : List (Event edgeSignature EdgeChoice (Option Unit)) ×
    Pool edgeSignature JsError Edge (Option Unit) :=
  Pool.play (edge fun _ _ _ ↦ True) (fun _ _ ↦ {}) overtakenSchedule
    (registration edgeDeps waitingRow suspending waiting)

/-- The write of the registration. -/
def overtaking : List (Event edgeSignature EdgeChoice (Option Unit)) ×
    Pool edgeSignature JsError Edge (Option Unit) :=
  Pool.play (edge fun _ _ _ ↦ True) (fun _ _ ↦ {}) [none] overtaken.2

end Sample

theorem overtaken_suspended :
    Sample.overtaken.2.state.system.appHosts.docs.map (·.state) = [.wsSuspended] := by
  decide +kernel

theorem overtaking_active :
    Sample.overtaking.2.state.system.appHosts.docs.map (·.state) = [.active] := by
  decide +kernel

theorem overtaking_not_settled :
    ¬ AtEachStep Sample.edgeDeps Sample.waitingRow Sample.suspending Sample.waiting
      (Sample.overtaken.1 ++ Sample.overtaking.1) SettlesRows := by
  intro h
  have hrun : Pool.Run (edge fun _ _ _ ↦ True) _ Sample.overtaken.1 Sample.overtaken.2 :=
    Pool.run_play _ _ _
  obtain ⟨notes, noted⟩ := hrun.noted fun _ ↦ none
  have hlast : Pool.Run (edge fun _ _ _ ↦ True) Sample.overtaken.2 Sample.overtaking.1
      Sample.overtaking.2 := Pool.run_play _ _ _
  have hthreads : Sample.overtaking.1.map (·.thread) = [none] := by decide +kernel
  obtain ⟨e, hevents, hthread⟩ := map_eq_singleton_iff.mp hthreads
  have hrows : SettlesRows _ _ _ _ :=
    h _ e [] notes _ _ (by rw [hevents]) noted (hlast.single hevents) hthread
  obtain ⟨row, hrow, hstate⟩ := map_eq_singleton_iff.mp overtaken_suspended
  obtain ⟨row', hrow', hstate'⟩ := map_eq_singleton_iff.mp overtaking_active
  unfold SettlesRows at hrows
  rw [hrow, hrow'] at hrows
  obtain ⟨hsettles, -⟩ := forall₂_cons.mp hrows
  cases hsettles with
  | same state => exact nomatch hstate'.symm.trans (state.trans hstate)
  | activated known own origin state => exact nomatch hstate.symm.trans origin
  | failed known foreign origin state => exact nomatch hstate'.symm.trans state

/-- A host whose workspace has been suspended meanwhile is in service again. -/
theorem settles_overtaken :
    Sample.overtaken.2.state.system.appHosts.docs.map (·.state) = [.wsSuspended] ∧
      Sample.overtaking.2.state.system.appHosts.docs.map (·.state) = [.active] ∧
        ¬ AtEachStep Sample.edgeDeps Sample.waitingRow Sample.suspending Sample.waiting
          (Sample.overtaken.1 ++ Sample.overtaking.1) SettlesRows :=
  ⟨overtaken_suspended, overtaking_active, overtaking_not_settled⟩

/-- In that run the row is not where the registration has seen it. -/
theorem settles_iff_overtaken :
    ¬ AtEachStep Sample.edgeDeps Sample.waitingRow Sample.suspending Sample.waiting
      (Sample.overtaken.1 ++ Sample.overtaking.1) (StillThere Sample.waitingRow) := by
  intro h
  have hwaits : isToCreate Sample.waitingRow := by decide
  exact overtaking_not_settled ((settles_iff Sample.edgeDeps Sample.waitingRow hwaits
    Sample.suspending Sample.waiting _).mpr h)

end PrivosCluster.Routing
