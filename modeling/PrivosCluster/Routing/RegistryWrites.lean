import PrivosCluster.AsyncProgram.RelyGuarantee
import PrivosCluster.Routing.CustomHostnames

/-!
# What each operation writes to the registry

Every operation reads rows as it likes and writes them in a few forms of its own, whatever it is
answered. The worker alone makes requests to Cloudflare.
-/

namespace PrivosCluster.Routing

open AsyncProgram DocumentStore

namespace RegistryOperation

open AppHostRegistry CfCustomHostnameWorker

/-- Rows without a custom hostname are deleted, and others marked for the worker. -/
def Retires : BulkOperation AppHostRecord → Prop
  | .deleteMany filter => ∀ row, filter row = true → row.cfHostnameId = none
  | .updateMany _ update => ∃ time, update = retiredAs time
  | _ => False

/-- The forms in which an operation writes rows. -/
def Writes : RegistryOperation → BulkOperation AppHostRecord → Prop
  | _, .one (.findOne _) => True
  | _, .one (.find _) => True
  | .reserve input, .one (.insertOne row) =>
    row.workspaceId = input.workspaceId ∧ row.appId = input.appId ∧ row.primary = false ∧
      row.cfHostnameId = none
  | .setDesiredHosts input, .one (.insertOne row) =>
    ∃ host ∈ input.hosts, ∃ time, row = desiredRow input host time
  | .setDesiredHosts input, .one (.updateOne filter update) =>
    ∃ host ∈ input.hosts, ∃ time, filter = (fun row ↦ row.hostname == host.hostname) ∧
      update = desiredAs input host time
  | .setDesiredHosts _, op => Retires op
  | .removeAllAppHosts _ _, op => Retires op
  | .setWorkspaceHostsSuspended workspaceId true, .updateMany filter update =>
    ∃ origin ∈ suspensibleStates, ∃ time,
      filter = (fun row ↦ row.workspaceId == workspaceId && row.state == origin) ∧
        update = suspendedAs origin time
  | .setWorkspaceHostsSuspended workspaceId false, .updateMany filter update =>
    (∃ origin, filter = isSuspendedOf workspaceId origin) ∧ ∃ state time,
      update = resumedAs state time ∨
        update = fun row ↦ { row with state := state, updatedAt := time, wsSuspendedAt := none }
  | .runOnce, .one (.updateOne filter update) =>
    ∃ host time, filter = isOf host ∧
      (update = notedAs time ∨ update = failedAs time ∨ ∃ id, update = recordedAs host id time)
  | .runOnce, .deleteMany filter => ∃ host, filter = fun row ↦ isOf host row && row.state == .deleting
  | .releaseSuspendedCfHostnames _, .one (.updateOne filter update) =>
    ∃ host time, filter = isOf host ∧ update = notedAs time ∨
      (filter = fun row ↦ isOf host row && row.state == .wsSuspended) ∧ update = releasedAs time
  | _, _ => False

/-- Operations of the worker. -/
def isPass : RegistryOperation → Bool
  | .runOnce | .releaseSuspendedCfHostnames _ => true
  | _ => false

/-- The calls an operation may make on the system, besides those on the lock. -/
def MakesOnSystem (operation : RegistryOperation) : SystemCall → Prop
  | .appHosts op => operation.Writes op
  | .master (.acquire _) => False
  | .master (.release _) => False
  | _ => True

/-- The calls an operation may make. -/
def Makes (operation : RegistryOperation) : EdgeCall → Prop
  | .system (.master (.acquire _)) => operation.isPass = false
  | .system (.master (.release _)) => operation.isPass = false
  | .system c => operation.MakesOnSystem c
  | .cloudflare _ => operation.isPass = true
  | .sleep _ => True

theorem MakesOnSystem.makes {operation : RegistryOperation} {c : SystemCall}
    (h : operation.MakesOnSystem c) : operation.Makes (.system c) := by
  cases c with
  | master c =>
    cases c with
    | acquire | release => exact h.elim
    | _ => trivial
  | _ => exact h

end RegistryOperation

variable {P : EdgeCall → Prop} {filter : AppHostRecord → Bool} {workspaceId : String}
  {deps : RegistryDeps} {time : Time} {input : SetDesiredHostsInput} {suspended : Bool}
  {request : CloudflareRequest}

/-- An action on the system makes the same calls at the edge. -/
theorem asks_onEdge {α : Type} {p : Action α} (h : AsyncProgram.Asks (fun c ↦ P (.system c)) p) :
    AsyncProgram.Asks P (onEdge p) := by
  induction p with
  | pure a => trivial
  | throw e => trivial
  | call c k ih =>
    apply Asks.bind (Asks.settle (Asks.ask h.1))
    intro answer
    exact ih answer (h.2 answer)

section Conduct

variable {operation : RegistryOperation}

theorem asks_await {c : SystemCall} (h : operation.MakesOnSystem c) :
    AsyncProgram.Asks operation.MakesOnSystem (await c) :=
  Asks.ask (σ := systemSignature) (c := c) h

theorem asks_systemNow : AsyncProgram.Asks operation.MakesOnSystem systemNow := asks_await trivial

theorem asks_appHosts {op : BulkOperation AppHostRecord} (h : operation.Writes op) :
    AsyncProgram.Asks operation.MakesOnSystem (await (.appHosts op)) :=
  asks_await h

theorem asks_findOne : AsyncProgram.Asks operation.MakesOnSystem (AppHosts.findOne filter) := by
  apply asks_appHosts
  cases operation <;> trivial

theorem asks_find : AsyncProgram.Asks operation.MakesOnSystem (AppHosts.find filter) := by
  apply asks_appHosts
  cases operation <;> trivial

theorem asks_onEdgeSystem {α : Type} {p : Action α}
    (h : AsyncProgram.Asks operation.MakesOnSystem p) :
    AsyncProgram.Asks operation.Makes (onEdge p) :=
  asks_onEdge (h.imp fun _ hc ↦ hc.makes)

/-- The lock is taken and given back around the action. -/
theorem asks_locked {α : Type} {p : Action α} (hlock : operation.isPass = false)
    (h : AsyncProgram.Asks operation.MakesOnSystem p) :
    AsyncProgram.Asks (fun c ↦ operation.Makes (.system c)) (locked workspaceId p) := by
  apply Asks.bind
  · exact Asks.ask (σ := systemSignature) (c := .master (.acquire workspaceId)) hlock
  · intro _
    apply (h.imp fun _ hc ↦ hc.makes).finallyDo
    exact Asks.ask (σ := systemSignature) (c := .master (.release workspaceId)) hlock

/-- A claim of a label makes no calls but those on labels and on the clock. -/
theorem claimLabelOf_asks {P : SystemCall → Prop} (hnow : P (.master (.service .now)))
    (hlabels : ∀ op, P (.hostLabels op)) {hostname : String} {kind : AppHostKind}
    {owner : LabelOwner} {conflict : String → JsError} :
    AsyncProgram.Asks P (AppHostRegistry.claimLabelOf hostname kind owner conflict) := by
  have hcall : ∀ op, AsyncProgram.Asks P (await (.hostLabels op)) :=
    fun op ↦ Asks.ask (σ := systemSignature) (c := .hostLabels op) (hlabels op)
  apply Asks.forSome
  intro label
  have hhold : AsyncProgram.Asks P (LabelNamespace.hold label owner) := by
    apply (Asks.ask (σ := systemSignature) (c := .master (.service .now)) hnow).bind
    intro time
    apply (hcall _).settle.bind
    intro inserted
    cases inserted <;> trivial
  apply hhold.settle.bind
  intro held
  cases held with
  | ok _ => trivial
  | error error =>
    dsimp only
    split
    · trivial
    · apply ((hcall _).bind fun _ ↦ Asks.pure).bind
      exact fun _ ↦ Asks.throwIf

namespace AppHostRegistry

theorem insertRow_asks {row : AppHostRecord} (h : operation.Writes (.one (.insertOne row))) :
    AsyncProgram.Asks operation.MakesOnSystem (insertRow row) := by
  apply (asks_appHosts h).settle.bind
  intro inserted
  cases inserted <;> trivial

theorem announce_asks {cfWorker : Bool} :
    AsyncProgram.Asks operation.MakesOnSystem (announce deps cfWorker) := by
  apply Asks.bind
  · exact Asks.onlyIf (asks_await trivial)
  · exact fun _ ↦ Asks.onlyIf (asks_await trivial)

/-- A reservation is made under the lock. -/
theorem reserve_asks (input : ReserveInput) :
    ∃ body, reserve input = locked input.workspaceId body ∧
      AsyncProgram.Asks (RegistryOperation.reserve input).MakesOnSystem body := by
  refine ⟨_, rfl, ?_⟩
  apply asks_findOne.bind
  intro existing
  cases existing with
  | some existing =>
    dsimp only
    split <;> trivial
  | none =>
    apply (claimLabelOf_asks trivial fun _ ↦ trivial).bind
    intro _
    apply asks_systemNow.bind
    intro time
    apply Asks.bind
    · exact insertRow_asks ⟨rfl, rfl, rfl, rfl⟩
    · exact fun _ ↦ trivial

theorem retire_asks (h : ∀ op, RegistryOperation.Retires op → operation.Writes op) :
    AsyncProgram.Asks operation.MakesOnSystem (retire filter time) := by
  have hdeleted : ∀ row : AppHostRecord, (filter row && row.cfHostnameId.isNone) →
      row.cfHostnameId = none := by
    intro row hrow
    simp only [Bool.and_eq_true, Option.isNone_iff_eq_none] at hrow
    exact hrow.2
  apply (asks_appHosts (h (.deleteMany _) hdeleted)).bind
  intro deleted
  exact (asks_appHosts (h (.updateMany _ _) ⟨time, rfl⟩)).bind fun _ ↦ trivial

theorem writeHost_asks {current : List AppHostRecord} {host : DesiredAppHost}
    (hhost : host ∈ input.hosts) :
    AsyncProgram.Asks (RegistryOperation.setDesiredHosts input).MakesOnSystem
      (writeHost input current time host) := by
  unfold writeHost
  split
  · apply Asks.bind
    · exact asks_appHosts ⟨host, hhost, time, rfl, rfl⟩
    · exact fun _ ↦ trivial
  · apply (claimLabelOf_asks trivial fun _ ↦ trivial).bind
    intro _
    apply Asks.bind
    · exact insertRow_asks ⟨host, hhost, time, rfl⟩
    · exact fun _ ↦ trivial

theorem replaceHosts_asks :
    AsyncProgram.Asks (RegistryOperation.setDesiredHosts input).MakesOnSystem
      (replaceHosts input) := by
  have hdead : ∀ row : AppHostRecord, (row.workspaceId == input.workspaceId &&
      row.appId == input.appId && row.state == .deleting && row.cfHostnameId.isNone) →
      row.cfHostnameId = none := by
    intro row hrow
    simp only [Bool.and_eq_true, Option.isNone_iff_eq_none] at hrow
    exact hrow.2
  have hretires : ∀ op, RegistryOperation.Retires op →
      (RegistryOperation.setDesiredHosts input).Writes op := by
    intro op hop
    cases op with
    | one op => exact hop.elim
    | updateMany | deleteMany => exact hop
  apply (asks_appHosts (hretires (.deleteMany _) hdead)).bind
  intro _
  apply asks_find.bind
  intro current
  apply asks_systemNow.bind
  intro time
  apply (Asks.mapEach fun host hhost ↦ writeHost_asks hhost).bind
  intro written
  apply Asks.bind
  · apply Asks.onlyIf
    exact (retire_asks hretires).bind fun _ ↦ Asks.pure
  · exact fun _ ↦ trivial

theorem setDesiredHosts_asks (deps : RegistryDeps) (input : SetDesiredHostsInput) :
    AsyncProgram.Asks (fun c ↦ (RegistryOperation.setDesiredHosts input).Makes (.system c))
      (setDesiredHosts deps input) := by
  apply Asks.throwIf.bind
  intro _
  apply (asks_locked rfl replaceHosts_asks).bind
  intro rows
  apply Asks.bind
  · exact announce_asks.imp fun _ hc ↦ hc.makes
  · exact fun _ ↦ trivial

theorem removeAllAppHosts_asks {appId : String} {generationId : Option String} :
    AsyncProgram.Asks (RegistryOperation.removeAllAppHosts appId generationId).MakesOnSystem
      (removeAllAppHosts deps appId generationId) := by
  apply asks_systemNow.bind
  intro time
  have hretires : ∀ op, RegistryOperation.Retires op →
      (RegistryOperation.removeAllAppHosts appId generationId).Writes op := by
    intro op hop
    cases op with
    | one op => exact hop.elim
    | updateMany | deleteMany => exact hop
  apply (retire_asks hretires).bind
  intro retired
  exact (Asks.onlyIf announce_asks).bind fun _ ↦ trivial

theorem sweepHosts_asks :
    AsyncProgram.Asks (RegistryOperation.setWorkspaceHostsSuspended workspaceId suspended).MakesOnSystem
      (sweepHosts workspaceId suspended time) := by
  cases suspended with
  | true =>
    apply Asks.foldEach
    intro _ origin horigin
    apply Asks.bind
    · exact asks_appHosts ⟨origin, horigin, time, rfl, rfl⟩
    · exact fun _ ↦ trivial
  | false =>
    apply Asks.bind
    · apply Asks.foldEach
      intro _ state _
      apply Asks.bind
      · exact asks_appHosts ⟨⟨some state, rfl⟩, state, time, .inl rfl⟩
      · exact fun _ ↦ trivial
    · intro modified
      apply Asks.bind
      · exact asks_appHosts ⟨⟨none, rfl⟩, .active, time, .inr rfl⟩
      · exact fun _ ↦ trivial

theorem setWorkspaceHostsSuspended_asks :
    AsyncProgram.Asks (RegistryOperation.setWorkspaceHostsSuspended workspaceId suspended).MakesOnSystem
      (setWorkspaceHostsSuspended deps workspaceId suspended) := by
  apply asks_systemNow.bind
  intro time
  apply sweepHosts_asks.bind
  intro modified
  exact (Asks.onlyIf announce_asks).bind fun _ ↦ trivial

end AppHostRegistry

namespace CfCustomHostnameWorker

theorem asks_awaitEdge {c : EdgeCall} (h : P c) : AsyncProgram.Asks P (awaitEdge c) :=
  Asks.ask (σ := edgeSignature) (c := c) h

theorem attempts_asks (hrequest : P (.cloudflare request)) (hsleep : ∀ ms, P (.sleep ms))
    (left : Nat) : ∀ lastError, AsyncProgram.Asks P (attempts request lastError left) := by
  induction left with
  | zero => exact fun _ ↦ trivial
  | succ left ih =>
    intro lastError
    apply (asks_awaitEdge hrequest).settle.bind
    intro fetched
    cases fetched with
    | ok response =>
      dsimp only
      split
      · exact (asks_awaitEdge (hsleep _)).bind fun _ ↦ ih _
      · split
        · trivial
        · exact (Asks.onlyIf (asks_awaitEdge (hsleep _))).bind fun _ ↦ ih _
    | error error => exact (Asks.onlyIf (asks_awaitEdge (hsleep _))).bind fun _ ↦ ih _

/-- A request to Cloudflare makes no calls but itself, again and again. -/
theorem api_asks (hrequest : P (.cloudflare request)) (hsleep : ∀ ms, P (.sleep ms)) :
    AsyncProgram.Asks P (api request) :=
  attempts_asks hrequest hsleep 5 _

theorem write_asks {update : Time → AppHostRecord → AppHostRecord}
    (h : ∀ time, operation.Writes (.one (.updateOne filter (update time)))) :
    AsyncProgram.Asks operation.Makes (write filter update) := by
  apply asks_onEdgeSystem
  apply asks_systemNow.bind
  intro time
  exact (asks_appHosts (h time)).bind fun _ ↦ trivial

variable {host : AppHostRecord}

theorem register_asks : AsyncProgram.Asks RegistryOperation.runOnce.Makes (register host) := by
  have hrecord : ∀ id, AsyncProgram.Asks RegistryOperation.runOnce.Makes
      (write (isOf host) (recordedAs host id)) :=
    fun id ↦ write_asks fun time ↦ ⟨host, time, rfl, .inr (.inr ⟨id, rfl⟩)⟩
  have hapi : ∀ request, AsyncProgram.Asks RegistryOperation.runOnce.Makes (api request) :=
    fun _ ↦ api_asks rfl fun _ ↦ trivial
  apply ((hapi _).bind fun _ ↦ Asks.pure).bind
  intro existing
  cases existing with
  | some existing =>
    dsimp only
    split
    · exact (hrecord _).bind fun _ ↦ trivial
    · apply Asks.bind
      · exact write_asks fun time ↦ ⟨host, time, rfl, .inr (.inl rfl)⟩
      · exact fun _ ↦ trivial
  | none =>
    apply (hapi _).bind
    intro created
    exact (hrecord _).bind fun _ ↦ trivial

theorem noted_asks :
    AsyncProgram.Asks RegistryOperation.runOnce.Makes (write (isOf host) notedAs) :=
  write_asks fun time ↦ ⟨host, time, rfl, .inl rfl⟩

theorem create_asks : AsyncProgram.Asks RegistryOperation.runOnce.Makes (create host) :=
  register_asks.tryCatch fun _ ↦ noted_asks.bind fun _ ↦ trivial

theorem deleteRemote_asks (hdelete : ∀ id, P (.cloudflare (.delete id)))
    (hsleep : ∀ ms, P (.sleep ms)) : AsyncProgram.Asks P (deleteRemote host) :=
  Asks.forSome fun _ ↦ (api_asks (hdelete _) hsleep).bind fun _ ↦ trivial

theorem deleteRow_asks : AsyncProgram.Asks RegistryOperation.runOnce.Makes (deleteRow host) := by
  apply asks_onEdgeSystem
  apply Asks.bind
  · exact asks_appHosts ⟨host, rfl⟩
  · exact fun _ ↦ trivial

theorem delete_asks : AsyncProgram.Asks RegistryOperation.runOnce.Makes (delete host) := by
  apply Asks.tryCatch
  · apply (deleteRemote_asks (fun _ ↦ rfl) fun _ ↦ trivial).bind
    intro _
    exact deleteRow_asks.bind fun _ ↦ Asks.pure
  · exact fun _ ↦ noted_asks.bind fun _ ↦ trivial

theorem runOnce_asks {deps : CfWorkerDeps} :
    AsyncProgram.Asks RegistryOperation.runOnce.Makes (runOnce deps) := by
  have hfind : ∀ filter,
      AsyncProgram.Asks RegistryOperation.runOnce.Makes (onEdge (AppHosts.find filter)) :=
    fun _ ↦ asks_onEdgeSystem asks_find
  unfold runOnce
  split
  · apply (hfind _).bind
    intro toCreate
    apply (hfind _).bind
    intro toDelete
    apply (Asks.mapEach fun _ _ ↦ create_asks).bind
    intro created
    exact (Asks.mapEach fun _ _ ↦ delete_asks).bind fun _ ↦ trivial
  · trivial

theorem releaseSuspendedCfHostnames_asks {deps : CfWorkerDeps} {retentionDays : Int} :
    AsyncProgram.Asks (RegistryOperation.releaseSuspendedCfHostnames retentionDays).Makes
      (releaseSuspendedCfHostnames deps retentionDays) := by
  have hrelease : ∀ host,
      AsyncProgram.Asks (RegistryOperation.releaseSuspendedCfHostnames retentionDays).Makes
        (release host) := by
    intro host
    apply Asks.tryCatch
    · apply (deleteRemote_asks (fun _ ↦ rfl) fun _ ↦ trivial).bind
      intro _
      apply Asks.bind
      · exact write_asks fun time ↦ ⟨host, time, .inr ⟨rfl, rfl⟩⟩
      · exact fun _ ↦ trivial
    · intro _
      apply Asks.bind
      · exact write_asks fun time ↦ ⟨host, time, .inl ⟨rfl, rfl⟩⟩
      · exact fun _ ↦ trivial
  unfold releaseSuspendedCfHostnames
  split
  · apply (asks_onEdgeSystem asks_systemNow).bind
    intro now
    apply (asks_onEdgeSystem asks_find).bind
    intro candidates
    exact (Asks.mapEach fun host _ ↦ hrelease host).bind fun _ ↦ trivial
  · trivial

end CfCustomHostnameWorker

/-- Every operation makes only calls of its own forms. -/
theorem RegistryOperation.program_asks (deps : EdgeDeps) (operation : RegistryOperation) :
    AsyncProgram.Asks operation.Makes (operation.program deps) := by
  cases operation with
  | reserve input =>
    obtain ⟨body, hbody, hasks⟩ := AppHostRegistry.reserve_asks input
    have hreserve : AsyncProgram.Asks (fun c ↦ (RegistryOperation.reserve input).Makes (.system c))
        (AppHostRegistry.reserve input) := by
      rw [hbody]
      exact asks_locked rfl hasks
    exact (asks_onEdge hreserve).bind fun _ ↦ trivial
  | setDesiredHosts input =>
    have hset := asks_onEdge (AppHostRegistry.setDesiredHosts_asks deps.registry input)
    exact hset.bind fun _ ↦ trivial
  | removeAllAppHosts appId generationId =>
    exact (asks_onEdgeSystem AppHostRegistry.removeAllAppHosts_asks).bind fun _ ↦ trivial
  | setWorkspaceHostsSuspended workspaceId suspended =>
    exact (asks_onEdgeSystem AppHostRegistry.setWorkspaceHostsSuspended_asks).bind fun _ ↦ trivial
  | runOnce => exact CfCustomHostnameWorker.runOnce_asks.bind fun _ ↦ trivial
  | releaseSuspendedCfHostnames retentionDays =>
    exact CfCustomHostnameWorker.releaseSuspendedCfHostnames_asks.bind fun _ ↦ trivial

end Conduct

/-! ## Contracts about the rows -/

section Contracts

variable {H ι α : Type} {law : EdgeLaw} {law' : SystemLaw}

/-- A contract about the system, at the edge; custom hostnames are not its concern. -/
def onEdgeContract (C : Contract systemSignature JsError System Choice H) :
    Contract edgeSignature JsError Edge EdgeChoice H where
  track note
    | .system c, answer => C.track note c answer
    | _, _ => note
  assumes
    | .system c, x, s => C.assumes c x.system s.system
    | _, _, _ => True
  rely note s s' := C.rely note s.system s'.system
  ensures
    | note, .system c, x, s => C.ensures note c x.system s.system
    | _, _, _, _ => True
  rely_refl note s := C.rely_refl note s.system
  rely_trans note s s' s'' := C.rely_trans note s.system s'.system s''.system

/-- What is shown of an action on the system holds of it at the edge. -/
theorem Among.onEdge {C : Contract systemSignature JsError System Choice H}
    {Q : Except JsError α → H → System → Prop} {p : Action α} {note : H} {s : Edge}
    (hlaw : ∀ c x s, law (.system c) x s → law' c x.system s.system)
    (hp : Among (system law') C Q p note s.system) :
    Among (edge law) (onEdgeContract C) (fun r note s ↦ Q r note s.system) (onEdge p) note s := by
  induction p generalizing note s with
  | pure a => exact hp
  | throw e => exact hp
  | call c k ih =>
    intro s' hrely x hx hassume
    obtain ⟨hensures, hrest⟩ := hp s'.system hrely x.system (hlaw c x s' hx) hassume
    refine ⟨hensures, ?_⟩
    have hrest' := ih _ (s := (Edge.respond (.system c) x s').2) hrest
    simp only [edge, Edge.respond, system] at hrest' ⊢
    cases hr : (System.respond c x.system s'.system).1 <;> rw [hr] at hrest' <;> exact hrest'

/-- What every completed execution of an action on the system leaves, it leaves at the edge. -/
theorem wp.onEdge {Q : Except JsError α → System → Prop} {p : Action α} {s : Edge}
    (hlaw : ∀ c x s, law (.system c) x s → law' c x.system s.system)
    (hp : wp (system law') (fun _ _ _ ↦ True) Q p s.system) :
    wp (edge law) (fun _ _ _ ↦ True) (fun r s ↦ Q r s.system) (onEdge p) s := by
  induction p generalizing s with
  | pure a => exact hp
  | throw e => exact hp
  | call c k ih =>
    intro x hx
    have hrest := (hp x.system (hlaw c x s hx)).2
    refine ⟨trivial, ?_⟩
    have hrest' := ih _ (s := (Edge.respond (.system c) x s).2) hrest
    simp only [edge, Edge.respond, system] at hrest' ⊢
    cases hr : (System.respond c x.system s.system).1 <;> rw [hr] at hrest' <;> exact hrest'

/-- A call to Cloudflare leaves the system as it is. -/
theorem respond_cloudflare_system (request : CloudflareRequest) (x : EdgeChoice) (s : Edge) :
    (Edge.respond (.cloudflare request) x s).2.system = s.system := by
  simp only [Edge.respond]
  split
  · cases request <;> rfl
  · rfl

/-- Contracts that fit together on the system do so at the edge. -/
theorem Team.onEdge [DecidableEq ι] {C : ι → Contract systemSignature JsError System Choice H}
    {Q : ι → Except JsError Unit → H → System → Prop} {J : (ι → H) → System → Prop}
    (hlaw : ∀ c x s, law (.system c) x s → law' c x.system s.system)
    (team : Team (system law') C Q J) :
    Team (edge law) (fun i ↦ onEdgeContract (C i)) (fun i r note s ↦ Q i r note s.system)
      (fun notes s ↦ J notes s.system) where
  stable i r note s s' := team.stable i r note s.system s'.system
  fits notes s i c x hJ hx hassume hensures j hj := by
    cases c with
    | system c => exact team.fits notes s.system i c x.system hJ (hlaw c x s hx) hassume hensures j hj
    | cloudflare request =>
      have hsame := respond_cloudflare_system request x s
      change (C j).rely (notes j) s.system (Edge.respond (.cloudflare request) x s).2.system
      rw [hsame]
      exact (C j).rely_refl _ _
    | sleep ms => exact (C j).rely_refl _ _
  keeps notes s i c x hJ hx hassume hensures := by
    cases c with
    | system c => exact team.keeps notes s.system i c x.system hJ (hlaw c x s hx) hassume hensures
    | cloudflare request =>
      have hsame := respond_cloudflare_system request x s
      change J (Function.update notes i (notes i)) (Edge.respond (.cloudflare request) x s).2.system
      rw [hsame, Function.update_eq_self]
      exact hJ
    | sleep ms =>
      change J (Function.update notes i (notes i)) s.system
      rw [Function.update_eq_self]
      exact hJ

end Contracts

/-! ## What a call leaves in the collection -/

section Collections

variable {α : Type} [DecidableEq α] {keys : α → List IndexKey} {c : Collection α keys} {x : Choice}

/-- A document after a call was there before, or the call has written it. -/
theorem mem_serveBulk {op : BulkOperation α} {d : α} (h : d ∈ (serveBulk op x c).2.docs) :
    d ∈ c.docs ∨ op.Writes c.docs d := by
  unfold serveBulk at h
  cases hf : x.fault <;> simp only [hf] at h
  · exact Collection.mem_applyBulk h
  · exact .inl h
  · exact Collection.mem_applyBulk h

theorem forall₂_serveBulk {β : Type} {R : β → α → Prop} {bs : List β} {op : BulkOperation α}
    (hop : op.KeepsPlaces R) (h : List.Forall₂ R bs c.docs) :
    List.Forall₂ R bs (serveBulk op x c).2.docs := by
  unfold serveBulk
  cases x.fault with
  | refused => exact h
  | lost | none => exact Collection.forall₂_applyBulk hop h

/-- An update of all matching documents that was not refused has reached all of them. -/
theorem docs_of_updateMany_ok {filter : α → Bool} {update : α → α} {result : UpdateResult}
    (h : (serveBulk (.updateMany filter update) x c).1 = .ok result) :
    (serveBulk (.updateMany filter update) x c).2.docs = updateAll filter update c.docs := by
  unfold serveBulk at h ⊢
  cases hf : x.fault <;> simp only [hf] at h ⊢
  · simp only [Collection.applyBulk] at h ⊢
    split at h
    next hunique => rw [dif_pos hunique]
    next => cases h
  · cases h
  · cases h

/-- An update that was not refused has reached the first document that matches. -/
theorem docs_of_updateOne_ok {filter : α → Bool} {update : α → α}
    (h : (serveBulk (.one (.updateOne filter update)) x c).1.isOk) :
    (serveBulk (.one (.updateOne filter update)) x c).2.docs = updateFirst filter update c.docs := by
  unfold serveBulk at h ⊢
  cases hf : x.fault <;> simp only [hf] at h ⊢
  · simp only [Collection.applyBulk, Collection.apply] at h ⊢
    split
    next hnone =>
      have hnone' : ∀ d ∈ c.docs, filter d = false := by simpa using hnone
      exact (updateFirst_of_forall_not hnone').symm
    next d hfound =>
      rw [hfound] at h
      simp only [Collection.put] at h ⊢
      split at h
      next hunique => rw [dif_pos hunique]
      next => cases h
  · cases h
  · cases h

/-- A deletion that was not refused has reached all documents that match. -/
theorem docs_of_deleteMany_ok {filter : α → Bool}
    (h : (serveBulk (.deleteMany filter) x c).1.isOk) :
    (serveBulk (.deleteMany filter) x c).2.docs = c.docs.filter fun d ↦ !filter d := by
  unfold serveBulk at h ⊢
  cases hf : x.fault <;> simp only [hf] at h ⊢
  · rfl
  · cases h
  · cases h

end Collections

end PrivosCluster.Routing
