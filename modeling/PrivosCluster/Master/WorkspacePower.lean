import PrivosCluster.AsyncProgram.History
import PrivosCluster.Master.Revocation

/-!
# Suspended with the workspace

A suspension marks the apps it stops, and a resume starts the apps that carry the mark. The mark is
meant to say that the last change of the app's power was a suspension; a start, stop, restart or
redeployment of a single app leaves it as it is.
-/

namespace PrivosCluster

open AsyncProgram DocumentStore List Option

/-! ## Operations that may stop at any call -/

/-- `I` holds after every call, and every completed run ends in `Q`. -/
abbrev Through {α : Type} (law : Law) (I : World → Prop) (Q : Except JsError α → World → Prop)
    (p : Async α) (w : World) : Prop :=
  wp (cluster law) (fun c x s ↦ I (respond c x s).2) Q p w

variable {α : Type} {filter : MasterApp → Bool} {update : MasterApp → MasterApp} {w' w'' s : World}
  {Q : Except JsError (List AgentResponse) → World → Prop} {body : AppReplica → AgentRequest}
  {nodes : List MasterNode} {replicas : List AppReplica} {app : MasterApp} {time : Time}
  {signed : List AppKind} {sent : List SentRequest}

section Through

variable {law : Law} {I : World → Prop} {w : World}

theorem through_of_quiet {Q : Except JsError α → World → Prop} {p : Async α} (hp : IsQuiet law p)
    (hI : ∀ w', Quiet w w' → I w') (hQ : ∀ r w', Quiet w w' → Q r w') : Through law I Q p w := by
  suffices h : ∀ s, Quiet w s → Through law I Q p s from h w (Quiet.refl w)
  induction p with
  | pure a => exact hQ _
  | throw e => exact hQ _
  | call c k ih =>
    intro s hs x hx
    obtain ⟨hquiet, hk⟩ := hp x s trivial hx
    have hs' := hs.trans hquiet
    exact ⟨hI _ hs', ih _ hk _ hs'⟩

theorem through_awaitCall (c : Call) {Q : Except JsError c.Answer → World → Prop}
    (h : ∀ x, I (respond c x w).2 ∧ Q (respond c x w).1 (respond c x w).2) :
    Through law I Q (awaitCall c) w :=
  wp_ask.mpr fun x _ ↦ h x

theorem through_findOneApp {Q : Except JsError (Option MasterApp) → World → Prop} (hI : I w)
    (hok : Q (.ok (w.apps.docs.find? filter)) w) (herror : ∀ e, Q (.error e) w) :
    Through law I Q (Apps.findOne filter) w := by
  apply through_awaitCall (.apps (.findOne filter))
  intro x
  simp only [respond, serveStore_findOne]
  refine ⟨hI, ?_⟩
  split
  · exact hok
  · exact herror _

theorem through_findApps {Q : Except JsError (List MasterApp) → World → Prop} (hI : I w)
    (hok : Q (.ok (w.apps.docs.filter filter)) w) (herror : ∀ e, Q (.error e) w) :
    Through law I Q (Apps.find filter) w := by
  apply through_awaitCall (.apps (.find filter))
  intro x
  simp only [respond, serveStore_find]
  refine ⟨hI, ?_⟩
  split
  · exact hok
  · exact herror _

theorem through_findNodes {Q : Except JsError (List MasterNode) → World → Prop}
    {filter : MasterNode → Bool} (hI : I w) (hok : Q (.ok (w.nodes.docs.filter filter)) w)
    (herror : ∀ e, Q (.error e) w) : Through law I Q (Nodes.find filter) w := by
  apply through_awaitCall (.nodes (.find filter))
  intro x
  simp only [respond, serveStore_find]
  refine ⟨hI, ?_⟩
  split
  · exact hok
  · exact herror _

/-- An update of one app's record takes effect or is refused. -/
theorem through_updateApp {Q : Except JsError UpdateResult → World → Prop} {appId : String}
    (hkeys : ∀ app, filter app → appKeys (update app) = appKeys app)
    (hfilter : ∀ app, filter app → app.appId = appId) (hid : ∀ app, (update app).appId = app.appId)
    (hdone : ∀ w' : World, w'.requests = w.requests → w'.nodes = w.nodes →
      (∀ a, w'.app a = (w.app a).map fun app ↦ if filter app then update app else app) →
      I w' ∧ ∀ r, Q r w') (hrefused : I w ∧ ∀ e, Q (.error e) w) :
    Through law I Q (Apps.updateOne filter update) w := by
  apply through_awaitCall (.apps (.updateOne filter update))
  intro x
  obtain ⟨apps, hdocs, hserve⟩ := serveStore_updateOne (c := w.apps) (x := x) hkeys
  have happ := World.app_of_updateFirst (w := w) hdocs hfilter hid
  obtain ⟨hI, hQ⟩ := hdone { w with apps } rfl rfl happ
  simp only [respond, hserve]
  cases hfault : x.fault with
  | none => exact ⟨hI, hQ _⟩
  | refused => exact ⟨hrefused.1, hrefused.2 _⟩
  | lost => exact ⟨hI, hQ _⟩

theorem through_now {Q : Except JsError Time → World → Prop}
    (h : ∀ time w', Quiet w w' → I w' ∧ Q (.ok time) w') : Through law I Q now w := by
  apply through_awaitCall (.service .now)
  intro x
  have hquiet := respond_quiet (c := .service .now) trivial x w
  exact h _ _ hquiet

theorem through_request {Q : Except JsError AgentResponse → World → Prop} {node : MasterNode}
    {workspaceId : String} {body : AgentRequest}
    (h : ∀ r w', w'.apps = w.apps → w'.nodes = w.nodes →
      w'.requests = w.requests ++ [⟨node.nodeId, workspaceId, body⟩] → I w' ∧ Q r w') :
    Through law I Q (request node workspaceId body) w := by
  apply through_awaitCall (.request ⟨node.nodeId, workspaceId, body⟩)
  intro x
  exact h _ _ rfl rfl rfl

/-- A batch of tasks that send their requests and change no record. -/
theorem through_promiseAll_map {β : Type} {Q : Except JsError (List α) → World → Prop} {xs : List β}
    {f : β → Async α} {J : List (β × Except JsError α) → World → Prop}
    (start : ∀ w', Quiet w w' → I w' ∧ J [] w') (step : ∀ x ∈ xs, ∀ served w', J served w' →
      Through law I (fun r w'' ↦ J (served ++ [(x, r)]) w'') (f x) w')
    (hreturn : ∀ served w' rs, (served.map Prod.fst).Perm xs → J served w' →
      (∀ r ∈ served, ∃ a, r.2 = .ok a) → Q (.ok rs) w')
    (hthrow : ∀ served w' e, (served.map Prod.fst).Perm xs → J served w' → Q (.error e) w') :
    Through law I Q (promiseAll (xs.map f)) w := by
  refine wp_promiseAll_map (J := J) (fun x _ ↦ ?_) step hreturn hthrow
  obtain ⟨hI, hJ⟩ := start _ (respond_quiet
    (c := .service (.arrivalOrder (xs.map f).length)) trivial x w)
  exact ⟨hI, Service.serve x w (.arrivalOrder _), by simp [cluster, respond, Service.Fallible], hJ⟩

end Through

namespace AppLifecycle

/-! ## The power of single apps -/

/-- Every replica of the app is on a node that is on record. -/
def Hosted (w : World) (app : MasterApp) : Prop :=
  ∀ replica ∈ app.replicas, (nodeOf w.nodes.docs replica.nodeId).isSome

/-- The record of the app `appId` is as it was, or as `change` leaves the record of a chosen app. -/
def MayChange (chosen : MasterApp → Prop) (change : Time → MasterApp → MasterApp) (w w' : World) :
    Prop :=
  ∀ appId, w'.app appId = w.app appId ∨ ∃ app time, w.app appId = some app ∧ chosen app ∧
    w'.app appId = some (change time app)

/-- The records of all chosen apps are as `change` leaves them. -/
def HasChanged (chosen : MasterApp → Prop) (change : Time → MasterApp → MasterApp) (w w' : World) :
    Prop :=
  ∀ appId app, w.app appId = some app → chosen app →
    ∃ time, w'.app appId = some (change time app)

variable {chosen : MasterApp → Prop} {change : Time → MasterApp → MasterApp}

theorem mayChange_of_app_eq {w : World} (h : ∀ appId, w'.app appId = w.app appId) :
    MayChange chosen change w w' :=
  fun appId ↦ .inl (h appId)

theorem mayChange_of_apps_eq {w : World} (h : w'.apps = w.apps) : MayChange chosen change w w' :=
  mayChange_of_app_eq fun appId ↦ by rw [World.app, World.app, h]

theorem MayChange.quiet {w : World} (h : MayChange chosen change w w') (hquiet : Quiet w' w'') :
    MayChange chosen change w w'' := by
  intro appId
  rw [hquiet.app]
  exact h appId

theorem HasChanged.quiet {w : World} (h : HasChanged chosen change w w') (hquiet : Quiet w' w'') :
    HasChanged chosen change w w'' := by
  intro appId app happ hchosen
  rw [hquiet.app]
  exact h appId app happ hchosen

section Single

variable {law : Law} {I : World → Prop} {w : World} {workspaceId appId : String}

theorem through_load {Q : Except JsError MasterApp → World → Prop} (hI : I w)
    (hfound : ∀ app, w.app appId = some app → byId workspaceId appId app →
      app.state ≠ .removed → Q (.ok app) w)
    (herror : ∀ e, Q (.error e) w) : Through law I Q (load workspaceId appId) w := by
  rw [Through, load, wp_bind]
  refine through_findOneApp hI ?_ herror
  rw [andThen_ok]
  split
  next app hfind =>
    have hmatch := find?_some hfind
    simp only [Bool.and_eq_true, bne_iff_ne] at hmatch
    obtain ⟨hid, hstate⟩ := hmatch
    have hrecord : w.app appId = some app :=
      World.app_eq_some.mpr ⟨mem_of_find?_eq_some hfind, (byId_iff.mp hid).1⟩
    exact hfound app hrecord hid hstate
  next => exact herror _

/-- A batch of requests to the nodes of the replicas fails when one of the nodes is unknown. -/
theorem through_requestNodes (hI : ∀ w', w'.apps = w.apps → I w')
    (hok : ∀ responses w', w'.apps = w.apps →
      (∀ replica ∈ replicas, (nodeOf nodes replica.nodeId).isSome) → Q (.ok responses) w')
    (herror : ∀ e w', w'.apps = w.apps → Q (.error e) w') :
    Through law I Q (promiseAll (replicas.map fun replica ↦
      requestNode (nodeOf nodes replica.nodeId) workspaceId (body replica))) w := by
  apply through_promiseAll_map (J := fun served w' ↦ w'.apps = w.apps ∧
    ∀ r ∈ served, (∃ a, r.2 = .ok a) → (nodeOf nodes r.1.nodeId).isSome)
  · intro w' hquiet
    exact ⟨hI w' hquiet.apps, hquiet.apps, fun _ h ↦ nomatch h⟩
  · intro replica _ served w' hJ
    obtain ⟨happs, hserved⟩ := hJ
    unfold requestNode
    split
    next node hnode =>
      apply through_request
      intro r w'' happs' _ _
      have happs'' := happs'.trans happs
      refine ⟨hI w'' happs'', happs'', ?_⟩
      intro r' hr' hokay
      obtain hr' | hr' := mem_append.mp hr'
      · exact hserved r' hr' hokay
      · rw [mem_singleton.mp hr', hnode]
        rfl
    next =>
      refine ⟨happs, ?_⟩
      intro r' hr' hokay
      obtain hr' | hr' := mem_append.mp hr'
      · exact hserved r' hr' hokay
      · rw [mem_singleton.mp hr'] at hokay
        obtain ⟨a, ha⟩ := hokay
        cases ha
  · intro served w' responses hperm hJ hokay
    apply hok responses w' hJ.1
    intro replica hreplica
    obtain ⟨r, hr, rfl⟩ := List.mem_map.mp (hperm.mem_iff.mpr hreplica)
    exact hJ.2 r hr (hokay r hr)
  · exact fun _ w' e _ hJ ↦ herror e w' hJ.1

/-- An update of the record of one app, which stood as it does in `w₀`. -/
theorem through_change {Q : Except JsError UpdateResult → World → Prop} {w₀ : World}
    {chosen : MasterApp → Prop} {change : Time → MasterApp → MasterApp} (happs : w.apps = w₀.apps)
    (happ : w₀.app appId = some app) (hid : byId workspaceId appId app) (hchosen : chosen app)
    (hunique : ∀ app', chosen app' → app'.appId = appId) (hupdate : update app = change time app)
    (hkeeps : ∀ app, appKeys (update app) = appKeys app ∧ (update app).appId = app.appId)
    (hok : ∀ r w', MayChange chosen change w₀ w' → HasChanged chosen change w₀ w' → Q r w')
    (herror : ∀ e, Q (.error e) w) :
    Through law (MayChange chosen change w₀) Q (Apps.updateOne (byId workspaceId appId) update) w := by
  have hsame : ∀ a, w.app a = w₀.app a := fun a ↦ by rw [World.app, World.app, happs]
  have hfilter : ∀ app, byId workspaceId appId app → app.appId = appId :=
    fun app h ↦ (byId_iff.mp h).1
  apply through_updateApp (fun app _ ↦ (hkeeps app).1) hfilter (fun app ↦ (hkeeps app).2)
  · intro w' _ _ hupdated
    have hown : w'.app appId = some (change time app) := by
      rw [hupdated, hsame, happ, map_some, if_pos hid, hupdate]
    have hmay : MayChange chosen change w₀ w' := by
      intro a
      by_cases ha : a = appId
      · subst ha
        exact .inr ⟨app, time, happ, hchosen, hown⟩
      · left
        have hother : ∀ d, w.app a = some d → byId workspaceId appId d ≠ true := by
          intro d hd hbyId
          exact ha ((World.app_eq_some.mp hd).2.symm.trans (byId_iff.mp hbyId).1)
        rw [hupdated, ← hsame]
        cases hd : w.app a with
        | none => rfl
        | some d => rw [map_some, if_neg (hother d hd)]
    refine ⟨hmay, fun r ↦ hok r w' hmay fun a app' happ' hchosen' ↦ ?_⟩
    obtain rfl : a = appId := (World.app_eq_some.mp happ').2.symm.trans (hunique app' hchosen')
    obtain rfl : app = app' := some.inj (happ.symm.trans happ')
    exact ⟨time, hown⟩
  · exact ⟨mayChange_of_app_eq hsame, herror⟩

end Single

end AppLifecycle

namespace AppLifecycle

section Operator

variable {law : Law} {w : World} {deps : LifecycleDeps} {workspaceId appId : String}

/-- An operator's command reaches the app; the kinds in `signed` take it from the Hub only. -/
structure Reaches (w : World) (signed : List AppKind) (workspaceId appId : String)
    (app : MasterApp) : Prop where
  named : byId workspaceId appId app = true
  present : app.state ≠ .removed
  unsigned : ∀ kind ∈ signed, app.kind ≠ some kind
  hosted : Hosted w app

theorem Reaches.appId_eq (h : Reaches w signed workspaceId appId app) : app.appId = appId :=
  (byId_iff.mp h.named).1

theorem quiet_get : IsQuiet law (get workspaceId appId) := by
  apply Meets.bind (R := fun _ ↦ True)
  · apply Meets.bind (R := fun _ ↦ True)
    · exact quiet_awaitCall trivial
    · intro found _
      cases found <;> trivial
  · exact fun _ _ ↦ trivial

/-- The nodes that are loaded for the replicas of an app know them if the records do. -/
theorem hosted_of_loaded (h : ∀ replica ∈ app.replicas, (nodeOf (w.nodes.docs.filter fun node ↦
      (app.replicas.map (·.nodeId)).contains node.nodeId) replica.nodeId).isSome) :
    Hosted w app := by
  intro replica hreplica
  have hloaded := h replica hreplica
  rwa [nodeOf_filter (List.mem_map_of_mem hreplica)] at hloaded

/-- The state that a power command leaves. -/
def stateAfter (action : PowerAction) : AppState := if action = .stop then .stopped else .running

theorem through_assertResponses {I : World → Prop} {Q : Except JsError Unit → World → Prop}
    {responses : List AgentResponse} {tolerateNotFound : Bool} (hok : Q (.ok ()) w)
    (herror : ∀ e, Q (.error e) w) :
    Through law I Q (assertResponses responses tolerateNotFound) w := by
  unfold assertResponses
  split
  · exact herror _
  · exact hok

/-- The replicas of a loaded app are commanded, and its record is changed when all have answered. -/
theorem through_commanded {change : Time → MasterApp → MasterApp}
    {update : Time → MasterApp → MasterApp} {rest : Time → Async α} (happ : w.app appId = some app)
    (hid : byId workspaceId appId app) (hstate : app.state ≠ .removed)
    (hkind : ∀ kind ∈ signed, app.kind ≠ some kind)
    (hupdate : ∀ time, update time app = change time app)
    (hkeeps : ∀ time app, appKeys (update time app) = appKeys app ∧
      (update time app).appId = app.appId) (hrest : ∀ time, IsQuiet law (rest time)) :
    Through law (MayChange (Reaches w signed workspaceId appId) change w)
      (fun r w' ↦ ∀ v, r = .ok v → HasChanged (Reaches w signed workspaceId appId) change w w')
      (loadNodes (app.replicas.map (·.nodeId)) >>= fun nodes ↦
        promiseAll (app.replicas.map fun replica ↦
          requestNode (nodeOf nodes replica.nodeId) workspaceId (body replica)) >>= fun responses ↦
        assertResponses responses false >>= fun _ ↦ now >>= fun time ↦
        Apps.updateOne (byId workspaceId appId) (update time) >>= fun _ ↦ rest time) w := by
  have hunchanged : ∀ w', w'.apps = w.apps →
      MayChange (Reaches w signed workspaceId appId) change w w' := fun _ ↦ mayChange_of_apps_eq
  rw [Through, wp_bind]
  refine through_findNodes (hunchanged w rfl) ?_ nofun
  rw [andThen_ok, wp_bind]
  refine through_requestNodes hunchanged (fun responses w₁ happs₁ hloaded ↦ ?_)
    fun e w' _ _ h ↦ nomatch h
  have hreached : Reaches w signed workspaceId appId app :=
    ⟨hid, hstate, hkind, hosted_of_loaded hloaded⟩
  rw [andThen_ok, wp_bind]
  refine through_assertResponses ?_ nofun
  rw [andThen_ok, wp_bind]
  apply through_now
  intro time w₂ hquiet₂
  have happs₂ : w₂.apps = w.apps := hquiet₂.apps.trans happs₁
  refine ⟨hunchanged w₂ happs₂, ?_⟩
  rw [andThen_ok, wp_bind]
  refine through_change happs₂ happ hid hreached (fun _ h ↦ h.appId_eq) (hupdate time)
    (hkeeps time) ?_ nofun
  intro r w₃ hmay hchanged
  cases r with
  | error e => exact nofun
  | ok result =>
    exact through_of_quiet (hrest time) (fun w' hquiet ↦ hmay.quiet hquiet)
      fun r w' hquiet _ _ ↦ hchanged.quiet hquiet

theorem through_invoke {action : PowerAction} :
    Through law (MayChange (Reaches w [.mcpV3] workspaceId appId) (poweredAs (stateAfter action)) w)
      (fun r w' ↦ ∀ v, r = .ok v →
        HasChanged (Reaches w [.mcpV3] workspaceId appId) (poweredAs (stateAfter action)) w w')
      (invoke deps workspaceId appId action) w := by
  rw [Through, invoke, wp_bind]
  refine through_load (mayChange_of_apps_eq rfl) (fun app happ hid hstate ↦ ?_)
    fun e _ h ↦ nomatch h
  rw [andThen_ok, wp_bind, wp_throwIf]
  split
  · exact nofun
  next hkind =>
    refine through_commanded happ hid hstate (by simpa using hkind) (fun _ ↦ by rfl)
      (fun _ _ ↦ by exact ⟨rfl, rfl⟩) fun time ↦ ?_
    apply Meets.bind (R := fun _ ↦ True)
    · exact Meets.onlyIf fun _ ↦ quiet_insertReplicaEvents
    · exact fun _ _ ↦ Meets.bind quiet_publish fun _ _ ↦ quiet_get

/-- The record as a redeployment with the given input leaves it. -/
def redeployWith (input : RedeployInput) (time : Time) (app : MasterApp) : MasterApp :=
  redeployedAs (input.image.getD app.image) (input.digest.getD app.imageDigest)
    (input.versionDigest.getD app.versionDigest)
    ((input.resources.getD {}).applyTo app.resources) time app

theorem through_redeploy {input : RedeployInput} :
    Through law (MayChange (Reaches w [.mcpV2, .mcpV3] workspaceId appId) (redeployWith input) w)
      (fun r w' ↦ ∀ v, r = .ok v →
        HasChanged (Reaches w [.mcpV2, .mcpV3] workspaceId appId) (redeployWith input) w w')
      (redeploy workspaceId appId input) w := by
  rw [Through, redeploy, wp_bind]
  refine through_load (mayChange_of_apps_eq rfl) (fun app happ hid hstate ↦ ?_)
    fun e _ h ↦ nomatch h
  rw [andThen_ok, wp_bind, wp_throwIf]
  split
  · exact nofun
  next hkind =>
    exact through_commanded happ hid hstate (by simpa using hkind) (fun _ ↦ by rfl)
      (fun _ _ ↦ by exact ⟨rfl, rfl⟩) fun _ ↦ Meets.bind quiet_insertReplicaEvents fun _ _ ↦ quiet_get

end Operator

end AppLifecycle

namespace AppLifecycle

/-! ## The power of a workspace -/

/-- The requests sent between two states. -/
def sentBetween (w w' : World) : List SentRequest := w'.requests.drop w.requests.length

/-- The command that a suspension or a resume sends to a replica. -/
def powerCommand (workspaceId : String) (action : WorkspacePower) (replica : AppReplica) :
    SentRequest :=
  ⟨replica.nodeId, workspaceId,
    .power replica.containerId (if action = .suspend then .stop else .start)⟩

/-- Records change as `MayChange` says, and all requests are commands to the chosen apps. -/
structure Switches (workspaceId : String) (action : WorkspacePower) (w w' : World) : Prop where
  apps : MayChange (fun app ↦ powerSelector workspaceId action app = true)
    (workspacePoweredAs (action = .suspend)) w w'
  sent : ∃ sent, w'.requests = w.requests ++ sent ∧ ∀ request ∈ sent,
    ∃ appId app, w.app appId = some app ∧ powerSelector workspaceId action app = true ∧
      ∃ replica ∈ app.replicas, request = powerCommand workspaceId action replica

/-- The app has been switched: its record says so, and its replicas on known nodes have been told. -/
structure Switched (workspaceId : String) (action : WorkspacePower) (w w' : World)
    (app : MasterApp) : Prop where
  record : ∃ time, w'.app app.appId = some (workspacePoweredAs (action = .suspend) time app)
  told : ∀ replica ∈ app.replicas, (nodeOf w.nodes.docs replica.nodeId).isSome →
    powerCommand workspaceId action replica ∈ sentBetween w w'

variable {workspaceId : String}

theorem Switches.refl {action : WorkspacePower} {w : World} (happs : w'.apps = w.apps)
    (hrequests : w'.requests = w.requests) :
    Switches workspaceId action w w' where
  apps := mayChange_of_apps_eq happs
  sent := ⟨[], by rw [hrequests, append_nil], fun _ h ↦ nomatch h⟩

theorem Switches.quiet {action : WorkspacePower} {w : World} (h : Switches workspaceId action w w')
    (hquiet : Quiet w' w'') :
    Switches workspaceId action w w'' where
  apps := h.apps.quiet hquiet
  sent := by
    rw [hquiet.requests]
    exact h.sent

theorem sentBetween_mono {w : World} (h : w''.requests = w'.requests ++ sent)
    {request : SentRequest} (hrequest : request ∈ sentBetween w w') :
    request ∈ sentBetween w w'' := by
  unfold sentBetween at hrequest ⊢
  rw [h, drop_append]
  exact mem_append_left _ hrequest

theorem Switched.mono {action : WorkspacePower} {w : World}
    (h : Switched workspaceId action w w' app) (happ : w''.app app.appId = w'.app app.appId)
    (hsent : w''.requests = w'.requests ++ sent) :
    Switched workspaceId action w w'' app where
  record := by
    rw [happ]
    exact h.record
  told replica hreplica hknown := sentBetween_mono hsent (h.told replica hreplica hknown)

section Workspace

variable {law : Law} {w : World} {deps : LifecycleDeps} {workspaceId : String}
  {action : WorkspacePower}

/-- The commands to the replicas of an app whose nodes are known. -/
theorem through_powerCommands {I : World → Prop}
    (hI : ∀ s' sent, s'.apps = s.apps → s'.requests = s.requests ++ sent →
      (∀ request ∈ sent, ∃ replica ∈ replicas, request = powerCommand workspaceId action replica) →
      I s') (hok : ∀ responses s' sent, s'.apps = s.apps → s'.requests = s.requests ++ sent →
      (∀ request ∈ sent, ∃ replica ∈ replicas, request = powerCommand workspaceId action replica) →
      (∀ replica ∈ replicas, (nodeOf nodes replica.nodeId).isSome →
        powerCommand workspaceId action replica ∈ sent) → Q (.ok responses) s')
    (herror : ∀ e s', Q (.error e) s') :
    Through law I Q (promiseAll (replicas.filterMap fun replica ↦
      (nodeOf nodes replica.nodeId).map fun node ↦ request node workspaceId
        (.power replica.containerId (if action = .suspend then .stop else .start)))) s := by
  -- the replicas on known nodes, each with its node
  let located := replicas.filterMap fun replica ↦
    (nodeOf nodes replica.nodeId).map fun node ↦ (replica, node)
  let send (place : AppReplica × MasterNode) : Async AgentResponse :=
    request place.2 workspaceId
      (.power place.1.containerId (if action = .suspend then .stop else .start))
  let command (place : AppReplica × MasterNode) : SentRequest :=
    powerCommand workspaceId action place.1
  have hlocated : ∀ place ∈ located, place.1 ∈ replicas ∧ place.2.nodeId = place.1.nodeId := by
    intro place hplace
    obtain ⟨replica, hreplica, hsome⟩ := mem_filterMap.mp hplace
    obtain ⟨node, hnode, rfl⟩ := map_eq_some_iff.mp hsome
    exact ⟨hreplica, nodeId_of_nodeOf hnode⟩
  have htasks : (replicas.filterMap fun replica ↦ (nodeOf nodes replica.nodeId).map fun node ↦
      request node workspaceId
        (.power replica.containerId (if action = .suspend then .stop else .start))) =
      located.map send := by
    rw [map_filterMap]
    congr 1
    funext replica
    cases nodeOf nodes replica.nodeId <;> rfl
  have hcommands : ∀ places : List (AppReplica × MasterNode), (∀ place ∈ places, place ∈ located) →
      ∀ request ∈ places.map command,
        ∃ replica ∈ replicas, request = powerCommand workspaceId action replica := by
    intro places hplaces request hrequest
    obtain ⟨place, hplace, rfl⟩ := List.mem_map.mp hrequest
    exact ⟨place.1, (hlocated place (hplaces place hplace)).1, rfl⟩
  rw [htasks]
  apply through_promiseAll_map (J := fun served s' ↦ s'.apps = s.apps ∧
    (∀ place ∈ served.map Prod.fst, place ∈ located) ∧
    s'.requests = s.requests ++ (served.map Prod.fst).map command)
  · intro s' hquiet
    have hrequests : s'.requests = s.requests ++ [] := by rw [hquiet.requests, append_nil]
    exact ⟨hI s' [] hquiet.apps hrequests fun _ h ↦ (nomatch h), hquiet.apps,
      fun _ h ↦ (nomatch h), hrequests⟩
  · intro place hplace served s' hJ
    obtain ⟨happs, hserved, hrequests⟩ := hJ
    apply through_request
    intro r s'' happs' _ hrequests'
    have hall : ∀ place' ∈ (served ++ [(place, r)]).map Prod.fst, place' ∈ located := by
      intro place' hplace'
      rw [map_append] at hplace'
      obtain hplace' | hplace' := mem_append.mp hplace'
      · exact hserved place' hplace'
      · rw [mem_singleton.mp hplace']
        exact hplace
    have hsent : s''.requests =
        s.requests ++ ((served ++ [(place, r)]).map Prod.fst).map command := by
      rw [hrequests', hrequests, (hlocated place hplace).2]
      simp [command, powerCommand]
    have happs'' : s''.apps = s.apps := happs'.trans happs
    exact ⟨hI s'' _ happs'' hsent (hcommands _ hall), happs'', hall, hsent⟩
  · intro served s' responses hperm hJ _
    obtain ⟨happs, hserved, hrequests⟩ := hJ
    apply hok responses s' _ happs hrequests (hcommands _ hserved)
    intro replica hreplica hknown
    obtain ⟨node, hnode⟩ := isSome_iff_exists.mp hknown
    have hplace : (replica, node) ∈ located :=
      mem_filterMap.mpr ⟨replica, hreplica, by rw [hnode]; rfl⟩
    exact List.mem_map.mpr ⟨(replica, node), hperm.mem_iff.mpr hplace, rfl⟩
  · exact fun _ s' e _ _ ↦ herror e s'

theorem Switches.send {s' : World} (hs : Switches workspaceId action w s)
    (happ : w.app app.appId = some app) (hchosen : powerSelector workspaceId action app = true)
    (happs : s'.apps = s.apps) (hrequests : s'.requests = s.requests ++ sent)
    (hsent : ∀ request ∈ sent,
      ∃ replica ∈ app.replicas, request = powerCommand workspaceId action replica) :
    Switches workspaceId action w s' := by
  obtain ⟨earlier, hearlier, hcommands⟩ := hs.sent
  constructor
  · intro a
    have hsa : s'.app a = s.app a := by rw [World.app, World.app, happs]
    rw [hsa]
    exact hs.apps a
  · refine ⟨earlier ++ sent, by rw [hrequests, hearlier, append_assoc], ?_⟩
    intro request hrequest
    obtain hold | hnew := mem_append.mp hrequest
    · exact hcommands request hold
    · exact ⟨app.appId, app, happ, hchosen, hsent request hnew⟩

/-- One app of a loop over the chosen apps, which the earlier ones have left as it was. -/
theorem through_setAppPower (happ : w.app app.appId = some app)
    (hchosen : powerSelector workspaceId action app = true)
    (hnodes : ∀ replica ∈ app.replicas, nodeOf nodes replica.nodeId =
      nodeOf w.nodes.docs replica.nodeId) (hs : Switches workspaceId action w s)
    (hsame : s.app app.appId = w.app app.appId) :
    Through law (Switches workspaceId action w)
      (onOutcome (fun _ s' ↦ Switches workspaceId action w s' ∧
        Switched workspaceId action w s' app ∧
        (∀ a, a ≠ app.appId → s'.app a = s.app a) ∧
        ∃ sent, s'.requests = s.requests ++ sent) fun _ _ ↦ True)
      (setAppPower workspaceId action nodes time app) s := by
  have hid : byId workspaceId app.appId app = true := by
    cases action <;> simp_all [powerSelector, byId]
  rw [Through, setAppPower, wp_bind]
  refine through_powerCommands (fun s' sent ↦ hs.send happ hchosen)
    (fun responses s₁ sent happs₁ hrequests₁ hsent htold ↦ ?_) fun _ _ ↦ trivial
  have hs₁ := hs.send happ hchosen happs₁ hrequests₁ hsent
  have hsame₁ : ∀ a, s₁.app a = s.app a := fun a ↦ by rw [World.app, World.app, happs₁]
  obtain ⟨earlier, hearlier, -⟩ := hs.sent
  have hnew : ∀ replica ∈ app.replicas, (nodeOf w.nodes.docs replica.nodeId).isSome →
      powerCommand workspaceId action replica ∈ sentBetween w s₁ := by
    intro replica hreplica hknown
    rw [sentBetween, hrequests₁, hearlier, append_assoc, drop_left]
    rw [← hnodes replica hreplica] at hknown
    exact mem_append_right _ (htold replica hreplica hknown)
  rw [andThen_ok, wp_bind]
  refine through_assertResponses ?_ fun _ ↦ trivial
  rw [andThen_ok, wp_bind]
  refine through_updateApp (fun _ _ ↦ rfl) (fun _ h ↦ (byId_iff.mp h).1) (fun _ ↦ rfl)
    (fun s₂ hrequests₂ _ hupdated ↦ ?_) ⟨hs₁, fun _ ↦ trivial⟩
  have hown : s₂.app app.appId = some (workspacePoweredAs (action = .suspend) time app) := by
    rw [hupdated, hsame₁, hsame, happ, map_some, if_pos hid]
  have hothers : ∀ a, a ≠ app.appId → s₂.app a = s.app a := by
    intro a ha
    rw [hupdated, hsame₁]
    cases hd : s.app a with
    | none => rfl
    | some d =>
      have hother : byId workspaceId app.appId d ≠ true := fun h ↦
        ha ((World.app_eq_some.mp hd).2.symm.trans (byId_iff.mp h).1)
      rw [map_some, if_neg hother]
  have hs₂ : Switches workspaceId action w s₂ := by
    constructor
    · intro a
      by_cases ha : a = app.appId
      · exact .inr ⟨app, time, ha ▸ happ, hchosen, ha ▸ hown⟩
      · rw [hothers a ha]
        exact hs.apps a
    · rw [hrequests₂]
      exact hs₁.sent
  refine ⟨hs₂, fun r ↦ ?_⟩
  cases r with
  | error e => trivial
  | ok result =>
    refine through_of_quiet quiet_insertReplicaEvents (fun w' hquiet ↦ hs₂.quiet hquiet)
      fun r w' hquiet ↦ ?_
    cases r with
    | error e => trivial
    | ok _ =>
      have hrequests : w'.requests = s₁.requests := hquiet.requests.trans hrequests₂
      have hswitched : Switched workspaceId action w w' app := by
        refine ⟨⟨time, by rw [hquiet.app, hown]⟩, fun replica hreplica hknown ↦ ?_⟩
        rw [sentBetween, hrequests]
        exact hnew replica hreplica hknown
      refine ⟨hs₂.quiet hquiet, hswitched, fun a ha ↦ ?_, ⟨sent, hrequests.trans hrequests₁⟩⟩
      rw [hquiet.app, hothers a ha]

end Workspace

end AppLifecycle

namespace AppLifecycle

section Workspace

variable {law : Law} {w : World} {deps : LifecycleDeps} {workspaceId : String}
  {action : WorkspacePower}

theorem quiet_switchHosts {suspended : Bool} :
    IsQuiet law (switchHosts deps workspaceId suspended) := by
  unfold switchHosts
  split
  · exact quiet_awaitCall trivial
  · trivial

/-- The loop switches one app after the other, and leaves the rest to come as they were. -/
theorem through_setAppPowers {apps : List MasterApp}
    (hchosen : ∀ app ∈ apps, w.app app.appId = some app ∧
      powerSelector workspaceId action app = true) (hdistinct : (apps.map MasterApp.appId).Nodup)
    (hnodes : ∀ app ∈ apps, ∀ replica ∈ app.replicas,
      nodeOf nodes replica.nodeId = nodeOf w.nodes.docs replica.nodeId) (hquiet : Quiet w s) :
    Through law (Switches workspaceId action w)
      (onOutcome (fun _ s' ↦ Switches workspaceId action w s' ∧
        ∀ app ∈ apps, Switched workspaceId action w s' app) fun _ _ ↦ True)
      (Program.forEach (setAppPower workspaceId action nodes time) apps) s := by
  let K (visited : List MasterApp) (s : World) : Prop := Switches workspaceId action w s ∧
    (∀ app ∈ visited, Switched workspaceId action w s app) ∧
    ∀ a, a ∉ visited.map MasterApp.appId → s.app a = w.app a
  have hloop : Through law (Switches workspaceId action w)
      (onOutcome (fun _ ↦ K apps) fun _ _ ↦ True)
      (Program.forEach (setAppPower workspaceId action nodes time) apps) s := by
    apply wp_forEach
    · intro visited app rest s' happs hK
      obtain ⟨hswitches, hswitched, hsame⟩ := hK
      have hmem : app ∈ apps := by simp [happs]
      have hfresh : app.appId ∉ visited.map MasterApp.appId := by
        rw [happs, map_append] at hdistinct
        exact fun h ↦ (nodup_append.mp hdistinct).2.2 _ h _ mem_cons_self rfl
      apply (through_setAppPower (hchosen app hmem).1 (hchosen app hmem).2 (hnodes app hmem)
        hswitches (hsame _ hfresh)).imp
      intro r s'' hr
      cases r with
      | error e => trivial
      | ok _ =>
        obtain ⟨hswitches', hswitched', hothers, sent, hsent⟩ := hr
        refine ⟨hswitches', fun app' happ' ↦ ?_, fun a ha ↦ ?_⟩
        · obtain happ' | happ' := mem_append.mp happ'
          · have hne : app'.appId ≠ app.appId := fun h ↦
              hfresh (h ▸ List.mem_map_of_mem happ')
            exact (hswitched app' happ').mono (hothers _ hne) hsent
          · rw [mem_singleton.mp happ']
            exact hswitched'
        · rw [map_append, mem_append, not_or] at ha
          rw [hothers a (by simpa using ha.2)]
          exact hsame a ha.1
    · exact ⟨.refl hquiet.apps hquiet.requests, fun _ h ↦ (nomatch h), fun a _ ↦ hquiet.app a⟩
  apply hloop.imp
  intro r s' hr
  cases r with
  | error e => trivial
  | ok _ => exact ⟨hr.1, hr.2.1⟩

/-- A suspension or resume that returns has switched the chosen apps. -/
theorem through_setWorkspacePower :
    Through law (Switches workspaceId action w)
      (fun r w' ↦ ∀ n, r = .ok n → ∀ appId app, w.app appId = some app →
        powerSelector workspaceId action app = true → Switched workspaceId action w w' app)
      (setWorkspacePower deps workspaceId action) w := by
  have hmem : ∀ appId app, w.app appId = some app → powerSelector workspaceId action app = true →
      app ∈ w.apps.docs.filter (powerSelector workspaceId action) :=
    fun appId app happ hselected ↦
      mem_filter.mpr ⟨(World.app_eq_some.mp happ).1, hselected⟩
  have hrefl : ∀ w', Quiet w w' → Switches workspaceId action w w' :=
    fun w' hquiet ↦ .refl hquiet.apps hquiet.requests
  rw [Through, setWorkspacePower, wp_bind]
  refine through_findApps (hrefl w (Quiet.refl w)) ?_ fun e _ h ↦ nomatch h
  rw [andThen_ok, wp_bind]
  refine through_of_quiet quiet_switchHosts hrefl fun r w₁ hquiet₁ ↦ ?_
  cases r with
  | error e => exact fun _ h ↦ nomatch h
  | ok affectedHosts =>
    rw [andThen_ok]
    split
    next hempty =>
      have hquiet : IsQuiet law (do
          Program.onlyIf (0 < affectedHosts) (publish deps)
          Program.pure 0) :=
        Meets.bind (R := fun _ ↦ True) (Meets.onlyIf fun _ ↦ quiet_publish) fun _ _ ↦ trivial
      refine through_of_quiet hquiet (fun w' h ↦ hrefl w' (hquiet₁.trans h)) fun r w' _ n _ ↦ ?_
      intro appId app happ hselected
      have happ := hmem appId app happ hselected
      rw [List.isEmpty_iff.mp hempty] at happ
      cases happ
    next =>
      rw [wp_bind]
      refine through_findNodes (hrefl w₁ hquiet₁) ?_ fun e _ h ↦ nomatch h
      rw [andThen_ok, wp_bind, hquiet₁.nodes]
      apply through_now
      intro time w₂ hquiet₂
      have hquiet := hquiet₁.trans hquiet₂
      refine ⟨hrefl w₂ hquiet, ?_⟩
      rw [andThen_ok, wp_bind]
      refine (through_setAppPowers ?_ ?_ ?_ hquiet).imp fun r w₃ hr ↦ ?_
      · intro app happ
        obtain ⟨hstored, hselected⟩ := mem_filter.mp happ
        exact ⟨World.app_eq_some.mpr ⟨hstored, rfl⟩, hselected⟩
      · exact (w.apps.ids_nodup appIdentity).sublist (filter_sublist.map _)
      · intro app happ replica hreplica
        exact nodeOf_filter (mem_flatMap.mpr ⟨app, happ, List.mem_map_of_mem hreplica⟩)
      · cases r with
        | error e => exact fun _ h ↦ nomatch h
        | ok _ =>
          obtain ⟨hswitches, hswitched⟩ := hr
          have hquiet : IsQuiet law (do
              publish deps
              Program.pure (w.apps.docs.filter (powerSelector workspaceId action)).length) :=
            Meets.bind (R := fun _ ↦ True) quiet_publish fun _ _ ↦ trivial
          refine through_of_quiet hquiet (fun w' h ↦ hswitches.quiet h) fun r w' hquiet' n _ ↦ ?_
          intro appId app happ hselected
          apply (hswitched app (hmem appId app happ hselected)).mono (hquiet'.app _)
          rw [hquiet'.requests, append_nil]

end Workspace

end AppLifecycle

end PrivosCluster
