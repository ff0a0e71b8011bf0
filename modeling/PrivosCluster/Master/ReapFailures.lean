import PrivosCluster.Master.Revocation

/-!
# Reaping an app when something fails

A reap claims the record by moving it to REMOVING, and the fallible work comes after. No pass
selects a record in REMOVING, so a failure between the claim and the last write strands it.
The failures a reap meets are read off the trace of its calls.
-/

namespace PrivosCluster

open AsyncProgram DocumentStore AppLifecycle List

/-- The record is REMOVED, or the reaper will select it. -/
def Collected (w : World) (appId : String) : Prop :=
  (∃ app, w.app appId = some app ∧ app.state = .removed) ∨ ReapedAfterGrace w appId

/-! ## What a reap has met so far -/

/-- Where a reap stands: before each of its four calls on the app records, or at an end. -/
inductive Teardown where
  | claiming
  | claimed
  | reloaded
  | marked
  /-- The claim failed without effect. -/
  | refused
  /-- The claim stands, and something failed after it. -/
  | stuck
  /-- The write of REMOVED stands. -/
  | removed
deriving DecidableEq

namespace Teardown

def afterApps (fault : Fault) : Teardown → Teardown
  | .claiming =>
    match fault with
    | .none => .claimed
    | .refused => .refused
    | .lost => .stuck
  | .claimed => if fault = .none then .reloaded else .stuck
  | .reloaded => if fault = .none then .marked else .stuck
  | .marked => if fault = .refused then .stuck else .removed
  | ended => ended

def afterFailure : Teardown → Teardown
  | .refused => .refused
  | .removed => .removed
  | _ => .stuck

/-- An agent that is not reached, or answers an error other than 404. -/
def answerFails (x : Choice) : Bool := x.answer.all (failedResponse true)

/-- A failure of a call that is not on the app records. -/
def fails (call : Call) (x : Choice) : Bool :=
  match call with
  | .nodes _ => x.fault != .none
  | .request _ => answerFails x
  | .service s => s.Fallible && x.fault != .none
  | _ => false

def observe (t : Teardown) (event : Call × Choice) : Teardown :=
  match event.1 with
  | .apps _ => t.afterApps event.2.fault
  | call => if fails call event.2 then t.afterFailure else t

/-- What the calls of a reap and the choices of the environment amount to. -/
def ofTrace (trace : List (Call × Choice)) : Teardown := trace.foldl observe .claiming

@[simp] theorem ofTrace_nil : ofTrace [] = .claiming := rfl

@[simp] theorem ofTrace_append_one (trace : List (Call × Choice)) (event : Call × Choice) :
    ofTrace (trace ++ [event]) = (ofTrace trace).observe event := by
  simp [ofTrace]

@[simp] theorem observe_apps (t : Teardown) (op : Operation MasterApp) (x : Choice) :
    t.observe (.apps op, x) = t.afterApps x.fault := rfl

@[simp] theorem observe_nodes (t : Teardown) (op : Operation MasterNode) (x : Choice) :
    t.observe (.nodes op, x) = if x.fault ≠ .none then t.afterFailure else t := by
  simp [observe, fails]

@[simp] theorem observe_request (t : Teardown) (sent : SentRequest) (x : Choice) :
    t.observe (.request sent, x) = if answerFails x then t.afterFailure else t := rfl

@[simp] theorem observe_service (t : Teardown) (s : Service) (x : Choice) :
    t.observe (.service s, x) =
      if s.Fallible ∧ x.fault ≠ .none then t.afterFailure else t := by
  simp [observe, fails]

theorem observe_of_removed (event : Call × Choice) :
    Teardown.removed.observe event = .removed := by
  unfold observe
  split
  · rfl
  · split <;> rfl

/-- A reap that is over stays over. -/
theorem ofTrace_append_of_removed {trace : List (Call × Choice)} (h : ofTrace trace = .removed)
    {more : List (Call × Choice)} : ofTrace (trace ++ more) = .removed := by
  induction more generalizing trace with
  | nil => rwa [append_nil]
  | cons event more ih =>
    rw [append_cons]
    refine ih ?_
    rw [ofTrace_append_one, h, observe_of_removed]

end Teardown

/-! ## The traced reap -/

abbrev Trace := List (Call × Choice)

/-- Every completed run of the traced machine ends in `Q`. -/
abbrev TracedEnds {α : Type} (Q : Except JsError α → World × Trace → Prop) (p : Async α)
    (s : World × Trace) : Prop :=
  wp (cluster anyLaw).traced (fun _ _ _ ↦ True) Q p s

variable {trace : Trace} {w : World} {α : Type} {update : MasterApp → MasterApp} {state : AppState}
  {app : MasterApp}

theorem traced_awaitCall (c : Call) {Q : Except JsError c.Answer → World × Trace → Prop}
    (h : ∀ x, Q (respond c x w).1 ((respond c x w).2, trace ++ [(c, x)])) :
    TracedEnds Q (awaitCall c) (w, trace) :=
  wp_ask.mpr fun x _ ↦ ⟨trivial, h x⟩

/-- A quiet program only extends the trace. -/
theorem IsQuiet.tracedEnds {p : Async α} (h : IsQuiet anyLaw p) :
    TracedEnds (fun _ s ↦ Quiet w s.1 ∧ trace <+: s.2) p (w, trace) := by
  induction p generalizing w trace with
  | pure a => exact ⟨Quiet.refl w, prefix_rfl⟩
  | throw e => exact ⟨Quiet.refl w, prefix_rfl⟩
  | call c k ih =>
    intro x _
    obtain ⟨hquiet, hk⟩ := h x w trivial trivial
    refine ⟨trivial, (ih _ hk).imp fun r s hs ↦ ⟨hquiet.trans hs.1, ?_⟩⟩
    exact (prefix_append trace _).trans hs.2

theorem traced_updateApp {filter : MasterApp → Bool}
    {Q : Except JsError UpdateResult → World × Trace → Prop}
    (hkeys : ∀ app, filter app → appKeys (update app) = appKeys app)
    (hok : ∀ x (apps : Collection MasterApp appKeys),
      apps.docs = updateFirst filter update w.apps.docs → x.fault = .none →
      Q (.ok ((w.apps.docs.find? filter).elim ⟨0, 0⟩ fun app ↦ ⟨1, if update app = app then 0 else 1⟩))
        ({ w with apps }, trace ++ [(.apps (.updateOne filter update), x)]))
    (hlost : ∀ x (apps : Collection MasterApp appKeys),
      apps.docs = updateFirst filter update w.apps.docs → x.fault = .lost →
      Q (.error x.error) ({ w with apps }, trace ++ [(.apps (.updateOne filter update), x)]))
    (hrefused : ∀ x, x.fault = .refused →
      Q (.error x.error) (w, trace ++ [(.apps (.updateOne filter update), x)])) :
    TracedEnds Q (Apps.updateOne filter update) (w, trace) := by
  refine traced_awaitCall (.apps (.updateOne filter update)) fun x ↦ ?_
  obtain ⟨apps, hdocs, hserve⟩ := serveStore_updateOne (c := w.apps) (x := x) hkeys
  simp only [respond, hserve]
  cases hfault : x.fault with
  | none => exact hok x apps hdocs hfault
  | refused => exact hrefused x hfault
  | lost => exact hlost x apps hdocs hfault

theorem traced_promiseAll {Q : Except JsError (List α) → World × Trace → Prop}
    {tasks : List (Async α)} {J : List (Fin tasks.length × Except JsError α) → World × Trace → Prop}
    (start : ∀ x w', Quiet w w' →
      J [] (w', trace ++ [(.service (.arrivalOrder tasks.length), x)]))
    (step : ∀ settled i s', J settled s' →
      TracedEnds (fun r s'' ↦ J (settled ++ [(i, r)]) s'') (tasks.get i) s')
    (hreturn : ∀ settled s', Complete settled → J settled s' →
      (∀ r ∈ settled, ∃ a, r.2 = .ok a) →
      Q (.ok ((finRange tasks.length).filterMap (outcomeOf settled))) s')
    (hthrow : ∀ settled s' i e, Complete settled → J settled s' → (i, .error e) ∈ settled →
      Q (.error e) s') : TracedEnds Q (promiseAll tasks) (w, trace) :=
  wp_promiseAll (fun x _ ↦ ⟨trivial, Service.serve x w (.arrivalOrder tasks.length),
    by simp [Machine.traced, cluster, respond, Service.Fallible],
    start x _ (respond_quiet (c := .service (.arrivalOrder tasks.length)) trivial x w)⟩)
    step hreturn hthrow

/-! ## The stages of a reap -/

section Stages

variable {workspaceId appId : String}

/-- The record of the app, in a given state. -/
def RecordIn (state : AppState) (workspaceId appId : String) (w : World) : Prop :=
  ∃ app, w.app appId = some app ∧ app.workspaceId = workspaceId ∧ app.state = state

theorem RecordIn.of_app {w' : World} (h : RecordIn state workspaceId appId w)
    (happ : w'.app appId = w.app appId) : RecordIn state workspaceId appId w' := by
  obtain ⟨app, hw, hrest⟩ := h
  exact ⟨app, happ.trans hw, hrest⟩

theorem RecordIn.of_update {apps : Collection MasterApp appKeys}
    (h : RecordIn state workspaceId appId w)
    (hdocs : apps.docs = updateFirst (byId workspaceId appId) update w.apps.docs)
    (hid : ∀ app, (update app).appId = app.appId)
    (hworkspace : ∀ app, (update app).workspaceId = app.workspaceId) {state' : AppState}
    (hstate : ∀ app, (update app).state = state') :
    RecordIn state' workspaceId appId { w with apps } := by
  obtain ⟨app, happ, hin, -⟩ := h
  have hby : byId workspaceId appId app := byId_iff.mpr ⟨(World.app_eq_some.mp happ).2, hin⟩
  refine ⟨update app, ?_, (hworkspace app).trans hin, hstate app⟩
  rw [World.app_of_updateFirst hdocs (fun app h ↦ (byId_iff.mp h).1) hid, happ, Option.map_some,
    if_pos hby]

theorem not_collected_of_removing (h : RecordIn .removing workspaceId appId w) :
    ¬ Collected w appId := by
  obtain ⟨app, happ, -, hstate⟩ := h
  rintro (⟨app', happ', hstate'⟩ | ⟨app', time, happ', hstate', -, -⟩)
  · rw [happ, Option.some.injEq] at happ'
    rw [← happ', hstate] at hstate'
    cases hstate'
  · rw [happ, Option.some.injEq] at happ'
    rw [← happ', hstate] at hstate'
    cases hstate'

/-- The record is in a state, and the trace is at a point of the reap. -/
def At (state : AppState) (point : Teardown) (workspaceId appId : String) (s : World × Trace) :
    Prop :=
  RecordIn state workspaceId appId s.1 ∧ Teardown.ofTrace s.2 = point

/-- The record tells what the trace tells. -/
def Agrees (appId : String) (s : World × Trace) : Prop :=
  Collected s.1 appId ↔ Teardown.ofTrace s.2 = .refused ∨ Teardown.ofTrace s.2 = .removed

variable {s : World × Trace}

theorem At.agrees_of_stuck (h : At .removing .stuck workspaceId appId s) : Agrees appId s := by
  refine iff_of_false (not_collected_of_removing h.1) ?_
  rw [h.2]
  simp

theorem At.agrees_of_removed (h : At .removed .removed workspaceId appId s) : Agrees appId s := by
  obtain ⟨app, happ, -, hstate⟩ := h.1
  exact iff_of_true (.inl ⟨app, happ, hstate⟩) (.inr h.2)

/-- The stage between the mark and the last write: it goes on, or the reap is stuck. -/
abbrev Stage {α : Type} (workspaceId appId : String) (p : Async α) : Prop :=
  ∀ s, At .removing .marked workspaceId appId s →
    TracedEnds (onOutcome (fun _ ↦ At .removing .marked workspaceId appId)
      fun _ ↦ At .removing .stuck workspaceId appId) p s

theorem stage_service (service : Service) :
    Stage workspaceId appId (awaitCall (.service service)) := by
  rintro ⟨w, trace⟩ ⟨hrecord, htrace⟩
  refine traced_awaitCall (.service service) fun x ↦ ?_
  have hrecord' : RecordIn .removing workspaceId appId (respond (.service service) x w).2 := hrecord
  by_cases hfails : service.Fallible ∧ x.fault ≠ .none
  · have hanswer : (respond (.service service) x w).1 = .error x.error := if_pos hfails
    rw [hanswer]
    refine ⟨hrecord', ?_⟩
    rw [Teardown.ofTrace_append_one, htrace, Teardown.observe_service, if_pos hfails]
    rfl
  · have hanswer : (respond (.service service) x w).1 = .ok (service.serve x w) := if_neg hfails
    rw [hanswer]
    refine ⟨hrecord', ?_⟩
    rw [Teardown.ofTrace_append_one, htrace, Teardown.observe_service, if_neg hfails]

theorem stage_loadNodes (nodeIds : List String) :
    Stage workspaceId appId (loadNodes nodeIds) := by
  rintro ⟨w, trace⟩ ⟨hrecord, htrace⟩
  refine traced_awaitCall (.nodes (.find fun node ↦ nodeIds.contains node.nodeId)) fun x ↦ ?_
  simp only [respond, serveStore_find]
  split
  next hfault => exact ⟨hrecord, by simp [htrace, hfault]⟩
  next hfault => exact ⟨hrecord, by simp [htrace, hfault, Teardown.afterFailure]⟩

/-- An answer that does not fail the reap. -/
def Succeeds (r : Except JsError AgentResponse) : Bool :=
  match r with
  | .ok response => !failedResponse true response
  | .error _ => false

/-- One deletion, from a batch that has met a failure or has not. -/
theorem traced_delete {node : MasterNode} {containerId : String} {failed : Bool}
    (h : At .removing (if failed then .stuck else .marked) workspaceId appId s) :
    TracedEnds (fun r ↦ At .removing (if failed || !Succeeds r then .stuck else .marked)
      workspaceId appId) (request node workspaceId (.remove containerId)) s := by
  obtain ⟨w, trace⟩ := s
  obtain ⟨hrecord, htrace⟩ := h
  refine traced_awaitCall (.request ⟨node.nodeId, workspaceId, .remove containerId⟩) fun x ↦ ?_
  refine ⟨hrecord.of_app rfl, ?_⟩
  have hanswer : Succeeds (respond (.request ⟨node.nodeId, workspaceId, .remove containerId⟩) x w).1 =
      !Teardown.answerFails x := by
    simp only [respond, Teardown.answerFails]
    cases x.answer <;> rfl
  rw [hanswer, Teardown.ofTrace_append_one, htrace, Teardown.observe_request]
  cases failed <;> cases Teardown.answerFails x <;> rfl

/-- What a batch of deletions has met so far. -/
def anyFailed {n : Nat} (settled : List (Fin n × Except JsError AgentResponse)) : Bool :=
  settled.any fun r ↦ !Succeeds r.2

theorem anyFailed_concat {n : Nat} (settled : List (Fin n × Except JsError AgentResponse))
    (r : Fin n × Except JsError AgentResponse) :
    anyFailed (settled ++ [r]) = (anyFailed settled || !Succeeds r.2) := by
  simp [anyFailed]

/-- The deletions of a reap: an error answer is still to be looked at by the caller. -/
theorem traced_removeContainers {nodes : List MasterNode} {replicas : List AppReplica}
    (h : At .removing .marked workspaceId appId s) :
    TracedEnds (onOutcome
        (fun responses ↦ At .removing
          (if responses.any (failedResponse true) then .stuck else .marked) workspaceId appId)
        fun _ ↦ At .removing .stuck workspaceId appId)
      (removeContainers workspaceId nodes replicas true) s := by
  obtain ⟨w, trace⟩ := s
  refine traced_promiseAll
    (J := fun settled ↦ At .removing (if anyFailed settled then .stuck else .marked) workspaceId appId)
    (fun x w' hquiet ↦ ?_) (fun settled i s' hJ ↦ ?_) (fun settled s' hcomplete hJ hall ↦ ?_)
    fun settled s' i e _ hJ hthrown ↦ ?_
  · refine ⟨h.1.of_app (hquiet.app appId), ?_⟩
    have htrace : Teardown.ofTrace trace = .marked := h.2
    simp [htrace, Service.Fallible, anyFailed]
  · obtain ⟨replica, -, htask⟩ := mem_filterMap.mp (List.get_mem _ i)
    obtain ⟨node, -, htask⟩ := Option.map_eq_some_iff.mp htask
    rw [← htask]
    refine (traced_delete hJ).imp fun r s'' hr ↦ ?_
    rw [anyFailed_concat]
    exact hr
  · have hsame : anyFailed settled =
        ((finRange _).filterMap (outcomeOf settled)).any (failedResponse true) := by
      rw [Bool.eq_iff_iff, List.any_eq_true]
      constructor
      · intro hfailed
        obtain ⟨r, hr, hrfailed⟩ := List.any_eq_true.mp hfailed
        obtain ⟨response, hresponse⟩ := hall r hr
        refine ⟨response, hcomplete.mem_results.mpr ⟨r, hr, hresponse⟩, ?_⟩
        simpa [Succeeds, hresponse] using hrfailed
      · rintro ⟨response, hresponse, hfailed⟩
        obtain ⟨r, hr, hrok⟩ := hcomplete.mem_results.mp hresponse
        exact List.any_eq_true.mpr ⟨r, hr, by simp [Succeeds, hrok, hfailed]⟩
    rw [hsame] at hJ
    exact hJ
  · have hfailed : anyFailed settled := List.any_eq_true.mpr ⟨(i, .error e), hthrown, rfl⟩
    rw [hfailed] at hJ
    exact hJ

theorem traced_assertResponses {responses : List AgentResponse}
    (h : At .removing (if responses.any (failedResponse true) then .stuck else .marked)
      workspaceId appId s) :
    TracedEnds (onOutcome (fun _ ↦ At .removing .marked workspaceId appId)
      fun _ ↦ At .removing .stuck workspaceId appId) (assertResponses responses true) s := by
  unfold assertResponses
  cases hfind : responses.find? (failedResponse true) with
  | some failed =>
    have hany : responses.any (failedResponse true) :=
      List.any_eq_true.mpr ⟨failed, mem_of_find?_eq_some hfind, find?_some hfind⟩
    rw [hany] at h
    exact h
  | none =>
    have hany : responses.any (failedResponse true) = false := by
      simpa [find?_eq_none] using hfind
    rw [hany] at h
    exact h

/-- The last write of a reap, and everything after it. -/
theorem traced_markRemoved {deps : LifecycleDeps} {time : Time}
    (h : At .removing .marked workspaceId appId s) :
    TracedEnds (fun _ ↦ Agrees appId) (do
      let _ ← Apps.updateOne (byId workspaceId appId) (removedAs time)
      publish deps
      insertReplicaEvents workspaceId app app.replicas .removed app.resources none time
      let eventId ← randomUUID
      LifecycleEvents.insertOne
        { eventId, workspaceId, appId, type := .uninstalled, resources := app.resources, time }) s := by
  obtain ⟨w, trace⟩ := s
  obtain ⟨hrecord, htrace⟩ := h
  have hremoved {apps : Collection MasterApp appKeys}
      (hdocs : apps.docs = updateFirst (byId workspaceId appId) (removedAs time) w.apps.docs) :
      RecordIn .removed workspaceId appId { w with apps } :=
    hrecord.of_update hdocs (fun _ ↦ rfl) (fun _ ↦ rfl) fun _ ↦ rfl
  rw [TracedEnds, wp_bind]
  refine traced_updateApp (fun _ _ ↦ rfl) (fun x apps hdocs hfault ↦ ?_) (fun x apps hdocs hfault ↦ ?_)
    fun x hfault ↦ ?_
  · have hrest : IsQuiet anyLaw (do
        publish deps
        insertReplicaEvents workspaceId app app.replicas .removed app.resources none time
        let eventId ← randomUUID
        LifecycleEvents.insertOne
          { eventId, workspaceId, appId, type := .uninstalled, resources := app.resources, time }) :=
      quiet_publish.seq fun _ ↦ quiet_insertReplicaEvents.seq fun _ ↦
        Meets.seq (quiet_awaitCall (c := .service .randomUUID) trivial) fun _ ↦
          quiet_awaitCall trivial
    refine hrest.tracedEnds.imp fun r s hs ↦ ?_
    refine At.agrees_of_removed
      ⟨(hremoved hdocs).of_app (hs.1.app appId), ?_⟩
    obtain ⟨more, hmore⟩ := hs.2
    rw [← hmore]
    refine Teardown.ofTrace_append_of_removed ?_
    simp [htrace, hfault, Teardown.afterApps]
  · refine At.agrees_of_removed ⟨hremoved hdocs, ?_⟩
    simp [htrace, hfault, Teardown.afterApps]
  · refine At.agrees_of_stuck ⟨hrecord, ?_⟩
    simp [htrace, hfault, Teardown.afterApps]

theorem traced_now {point : Teardown} {Q : Except JsError Time → World × Trace → Prop}
    (h : At state point workspaceId appId s)
    (hQ : ∀ time s', At state point workspaceId appId s' → Q (.ok time) s') :
    TracedEnds Q now s := by
  obtain ⟨w, trace⟩ := s
  refine traced_awaitCall (.service .now) fun x ↦ ?_
  refine hQ (w.clock + x.elapsed) _ ⟨h.1.of_app rfl, ?_⟩
  rw [Teardown.ofTrace_append_one]
  exact h.2

theorem stage_pure (a : α) : Stage workspaceId appId (.pure a) := fun _ h ↦ h

theorem stage_forSome {o : Option α} {body : α → Async Unit}
    (h : ∀ a, Stage workspaceId appId (body a)) :
    Stage workspaceId appId (Program.forSome o body) := by
  cases o with
  | none => exact stage_pure ()
  | some a => exact h a

theorem stage_onlyIf {c : Prop} [Decidable c] {p : Async Unit} (h : Stage workspaceId appId p) :
    Stage workspaceId appId (Program.onlyIf c p) := by
  unfold Program.onlyIf
  split
  · exact h
  · exact stage_pure ()

/-- A stage that fails leaves the record in REMOVING, as the trace tells. -/
theorem Stage.andThen {β : Type} {p : Async α} {f : α → Async β} (hp : Stage workspaceId appId p)
    (hs : At .removing .marked workspaceId appId s)
    (hf : ∀ a s, At .removing .marked workspaceId appId s →
      TracedEnds (fun _ ↦ Agrees appId) (f a) s) : TracedEnds (fun _ ↦ Agrees appId) (p >>= f) s :=
  (hp s hs).bind hf fun _ _ hstuck ↦ hstuck.agrees_of_stuck

/-- The teardown of a reap, from the moment it has reloaded the record it claimed. -/
theorem traced_destroy {deps : LifecycleDeps} (h : At .removing .reloaded workspaceId appId s) :
    TracedEnds (fun _ ↦ Agrees appId) (destroy deps workspaceId appId app true) s := by
  rw [destroy, TracedEnds, wp_bind]
  refine traced_now h fun startedAt s ⟨hrecord, htrace⟩ ↦ ?_
  obtain ⟨w, trace⟩ := s
  have hmarked {apps : Collection MasterApp appKeys}
      (hdocs : apps.docs = updateFirst (byId workspaceId appId) (removingAs startedAt) w.apps.docs) :
      RecordIn .removing workspaceId appId { w with apps } :=
    hrecord.of_update hdocs (fun _ ↦ rfl) (fun _ ↦ rfl) fun _ ↦ rfl
  rw [andThen_ok, wp_bind]
  refine traced_updateApp (fun _ _ ↦ rfl) (fun x apps hdocs hfault ↦ ?_) (fun x apps hdocs hfault ↦ ?_)
    fun x hfault ↦ ?_
  · have hat : At .removing .marked workspaceId appId
        ({ w with apps }, trace ++ [(.apps (.updateOne (byId workspaceId appId)
          (removingAs startedAt)), x)]) :=
      ⟨hmarked hdocs, by simp [htrace, hfault, Teardown.afterApps]⟩
    refine (stage_loadNodes _).andThen hat fun nodes s hs ↦ ?_
    refine (traced_removeContainers hs).bind (fun responses s hs ↦ ?_)
      fun e s hstuck ↦ At.agrees_of_stuck hstuck
    refine (traced_assertResponses hs).bind (fun _ s hs ↦ ?_)
      fun e s hstuck ↦ At.agrees_of_stuck hstuck
    refine (stage_forSome fun label ↦ stage_service (.ingressRemove label)).andThen hs
      fun _ s hs ↦ ?_
    refine (stage_onlyIf (stage_service (.removeAllAppHosts appId app.mcpGenerationId))).andThen hs
      fun _ s hs ↦ ?_
    exact (stage_service .now).andThen hs fun time s hs ↦ traced_markRemoved hs
  · refine At.agrees_of_stuck ⟨hmarked hdocs, ?_⟩
    simp [htrace, hfault, Teardown.afterApps]
  · refine At.agrees_of_stuck ⟨hrecord, ?_⟩
    simp [htrace, hfault, Teardown.afterApps]

end Stages

theorem reapQuarantined_agrees {deps : LifecycleDeps} {workspaceId appId : String}
    (h : RevokeQuarantined w workspaceId appId app) :
    TracedEnds (fun _ ↦ Agrees appId) (reapQuarantined deps workspaceId appId) (w, []) := by
  have hby : byId workspaceId appId app :=
    byId_iff.mpr ⟨(World.app_eq_some.mp h.record).2, h.workspace⟩
  have hclaims : ∀ app, (byId workspaceId appId app && app.state == .quarantined) →
      app.appId = appId := fun app happ ↦ (byId_iff.mp (Bool.and_eq_true _ _ ▸ happ).1).1
  rw [reapQuarantined, TracedEnds, wp_bind]
  refine traced_awaitCall (.service .now) fun x ↦ ?_
  have hnow : (respond (.service .now) x w).1 = .ok (w.clock + x.elapsed) := rfl
  rw [hnow, andThen_ok, wp_bind]
  generalize hw : (respond (.service .now) x w).2 = w₁
  have h₁ : RevokeQuarantined w₁ workspaceId appId app :=
    ⟨by rw [← hw]; exact h.record, h.workspace, h.state, h.clockStarted⟩
  have htrace : Teardown.ofTrace ([] ++ [(.service .now, x)]) = .claiming := rfl
  generalize ([] ++ [(Call.service .now, x)] : Trace) = trace at htrace ⊢
  have hclaimed {time : Time} {apps : Collection MasterApp appKeys}
      (hdocs : apps.docs = updateFirst
        (fun app ↦ byId workspaceId appId app && app.state == .quarantined) (removingAs time)
        w₁.apps.docs) :
      ({ w₁ with apps } : World).app appId = some (removingAs time app) := by
    rw [World.app_of_updateFirst hdocs hclaims fun _ ↦ rfl, h₁.record, Option.map_some,
      if_pos (by simp [hby, h.state])]
  refine traced_updateApp (fun _ _ ↦ rfl) (fun y apps hdocs hfault ↦ ?_)
    (fun y apps hdocs hfault ↦ ?_) fun y hfault ↦ ?_
  · have happ := hclaimed hdocs
    have hchanged : removingAs (w.clock + x.elapsed) app ≠ app := fun heq ↦ by
      have hstate := congrArg MasterApp.state heq
      rw [h.state] at hstate
      cases hstate
    rw [World.find?_apps h₁.record hclaims (by simp [hby, h.state]), Option.elim_some, andThen_ok,
      if_neg hchanged, if_neg (by simp), wp_bind]
    refine traced_awaitCall (.apps (.findOne (byId workspaceId appId))) fun z ↦ ?_
    simp only [respond, serveStore_findOne]
    split
    next hread =>
      rw [World.find?_apps happ (fun app h ↦ (byId_iff.mp h).1) hby]
      refine traced_destroy ⟨⟨_, happ, h.workspace, rfl⟩, ?_⟩
      simp only [Teardown.ofTrace_append_one, Teardown.observe_apps, htrace, hfault, hread,
        Teardown.afterApps, if_true]
    next hread =>
      refine At.agrees_of_stuck ⟨⟨_, happ, h.workspace, rfl⟩, ?_⟩
      simp only [Teardown.ofTrace_append_one, Teardown.observe_apps, htrace, hfault, hread,
        Teardown.afterApps, if_false]
  · refine At.agrees_of_stuck ⟨⟨_, hclaimed hdocs, h.workspace, rfl⟩, ?_⟩
    simp [htrace, hfault, Teardown.afterApps]
  · refine iff_of_true (.inr h₁.reapedAfterGrace) (.inl ?_)
    simp [htrace, hfault, Teardown.afterApps]

/--
After a reap the record is REMOVED or selected again exactly when the claim failed without
effect, or nothing failed between the claim and a write of REMOVED that took effect.
-/
theorem reapQuarantined_collected_iff {deps : LifecycleDeps} {workspaceId appId : String}
    {app : MasterApp} {w w' : World} {trace : Trace} {r : Except JsError Unit}
    (h : RevokeQuarantined w workspaceId appId app)
    (run : Executes (cluster anyLaw).traced (reapQuarantined deps workspaceId appId) (w, [])
      (.ofExcept r) (w', trace)) :
    Collected w' appId ↔
      Teardown.ofTrace trace = .refused ∨ Teardown.ofTrace trace = .removed :=
  run.post (reapQuarantined_agrees h)

namespace Sample

/-- A reap in which the agent answers every request with a status. -/
def reap (status : Nat) : Except JsError Unit × World × Trace :=
  (cluster anyLaw).traced.run (fun _ _ ↦ { answer := some ⟨status, {}⟩ })
    (reapQuarantined deps "acme" "notes") (quarantinedWorld, [])

theorem executes_reap (status : Nat) : Executes (cluster anyLaw).traced
    (reapQuarantined deps "acme" "notes") (quarantinedWorld, []) (.ofExcept (reap status).1)
    (reap status).2 :=
  Machine.executes_run _ _ (fun _ _ ↦ trivial) _ _

end Sample

/-- A reap whose agent has lost the container already. -/
theorem reapQuarantined_collected_iff_not_found :
    Collected (Sample.reap 404).2.1 "notes" :=
  (reapQuarantined_collected_iff Sample.revokeQuarantined (Sample.executes_reap 404)).mpr
    (.inr (by decide +kernel))

/-- An agent that answers 500 leaves the record in REMOVING, where no pass selects it. -/
theorem reapQuarantined_strands_on_error :
    ¬ ∀ (deps : LifecycleDeps) (workspaceId appId : String) (app : MasterApp) (w w' : World)
      (trace : Trace) (r : Except JsError Unit), RevokeQuarantined w workspaceId appId app →
      Executes (cluster anyLaw).traced (reapQuarantined deps workspaceId appId) (w, [])
        (.ofExcept r) (w', trace) →
      Collected w' appId := by
  intro h
  have hstuck : RecordIn .removing "acme" "notes" (Sample.reap 500).2.1 := by
    have hrecord : ((Sample.reap 500).2.1.app "notes").any (fun app ↦
        app.workspaceId == "acme" && app.state == .removing) := by decide +kernel
    obtain ⟨app, happ, hstate⟩ := (Option.any_eq_true _ _).mp hrecord
    simp only [Bool.and_eq_true, beq_iff_eq] at hstate
    exact ⟨app, happ, hstate⟩
  exact not_collected_of_removing hstuck
    (h _ _ _ _ _ _ _ _ Sample.revokeQuarantined (Sample.executes_reap 500))

end PrivosCluster
