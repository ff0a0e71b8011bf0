import PrivosCluster.Master.Repositories

/-!
# Rules for the calls of the master

One rule for each kind of call, in terms of what the call meets and leaves. A store call either
takes effect, or fails before it, or fails with its effect standing; the rules ask for the
postcondition in each case the law allows.
-/

namespace PrivosCluster

open AsyncProgram DocumentStore List

/-- The record of an app. -/
def World.app (w : World) (appId : String) : Option MasterApp := w.apps.lookup appIdentity appId

variable {appId : String} {update : MasterApp → MasterApp} {β : Type}

theorem World.app_eq_some {w : World} {app : MasterApp} :
    w.app appId = some app ↔ app ∈ w.apps.docs ∧ app.appId = appId :=
  Collection.lookup_eq_some

/-- A query that names the app finds its record, if the record matches. -/
theorem World.find?_apps {w : World} {app : MasterApp} (happ : w.app appId = some app)
    {filter : MasterApp → Bool} (hfilter : ∀ app, filter app → app.appId = appId)
    (hmatch : filter app) : w.apps.docs.find? filter = some app := by
  have hfind := Collection.find?_docs (I := appIdentity) (c := w.apps) hfilter
  rw [World.app] at happ
  rw [hfind, happ, Option.filter_some_pos hmatch]

/-- The records of apps, nodes and workspaces are as they were, and so is the fleet. -/
structure Quiet (w w' : World) : Prop where
  apps : w'.apps = w.apps
  nodes : w'.nodes = w.nodes
  workspaces : w'.workspaces = w.workspaces
  containers : w'.containers = w.containers
  requests : w'.requests = w.requests
  clock : w.clock ≤ w'.clock

theorem Quiet.refl (w : World) : Quiet w w := ⟨rfl, rfl, rfl, rfl, rfl, Int.le_refl _⟩

theorem Quiet.trans {w w' w'' : World} (h : Quiet w w') (h' : Quiet w' w'') : Quiet w w'' where
  apps := h'.apps.trans h.apps
  nodes := h'.nodes.trans h.nodes
  workspaces := h'.workspaces.trans h.workspaces
  containers := h'.containers.trans h.containers
  requests := h'.requests.trans h.requests
  clock := Int.le_trans h.clock h'.clock

theorem Quiet.app {w w' : World} (h : Quiet w w') (appId : String) : w'.app appId = w.app appId := by
  rw [World.app, World.app, h.apps]

/-! ## Store calls -/

section Stores

variable {α : Type} [DecidableEq α] {keys : α → List IndexKey} {c : Collection α keys} {x : Choice}

theorem serveStore_findOne (filter : α → Bool) :
    serveStore (.findOne filter) x c =
      (if x.fault = .none then .ok (c.docs.find? filter) else .error x.error, c) := by
  unfold serveStore
  cases x.fault <;> rfl

theorem serveStore_find (filter : α → Bool) :
    serveStore (.find filter) x c =
      (if x.fault = .none then .ok (c.docs.filter filter) else .error x.error, c) := by
  unfold serveStore
  cases x.fault <;> rfl

/-- A store call takes effect or leaves the collection as it is. -/
theorem serveStore_applies {P : Collection α keys → Prop} (op : Operation α) (x : Choice) (h : P c)
    (happly : P (c.apply x.pick op).2) : P (serveStore op x c).2 := by
  unfold serveStore
  cases x.fault
  · exact happly
  · exact h
  · exact happly

theorem serveStore_of_isRead {op : Operation α} (hop : op.IsRead) :
    (serveStore op x c).2 = c := by
  unfold serveStore
  cases x.fault
  · exact Collection.apply_of_isRead hop
  · rfl
  · exact Collection.apply_of_isRead hop

theorem mem_serveStore {op : Operation α} {d : α} (h : d ∈ (serveStore op x c).2.docs) :
    d ∈ c.docs ∨ op.Writes c.docs d := by
  unfold serveStore at h
  cases hf : x.fault <;> simp only [hf] at h
  · exact Collection.mem_apply h
  · exact .inl h
  · exact Collection.mem_apply h

theorem mem_serveStore_of_not_selects {op : Operation α} {d : α} (hd : d ∈ c.docs)
    (hop : ¬ op.Selects d) : d ∈ (serveStore op x c).2.docs := by
  unfold serveStore
  cases x.fault
  · exact Collection.mem_apply_of_not_selects hd hop
  · exact hd
  · exact Collection.mem_apply_of_not_selects hd hop

/-- An update writes one document or, when it is refused, nothing. -/
theorem docs_serveStore_updateOne (filter : α → Bool) (update : α → α) (x : Choice)
    (c : Collection α keys) :
    (serveStore (.updateOne filter update) x c).2.docs = c.docs ∨
      (serveStore (.updateOne filter update) x c).2.docs = updateFirst filter update c.docs := by
  have happly : (c.apply x.pick (.updateOne filter update)).2.docs = c.docs ∨
      (c.apply x.pick (.updateOne filter update)).2.docs = updateFirst filter update c.docs := by
    simp only [Collection.apply]
    split
    · exact .inl rfl
    · exact (Collection.put_docs c x.pick _ _ _).symm
  unfold serveStore
  cases x.fault
  · exact happly
  · exact .inl rfl
  · exact happly

/-- An update that keeps index entries either takes effect or is refused, whatever the answer. -/
theorem serveStore_updateOne {filter : α → Bool} {update : α → α}
    (hkeys : ∀ d, filter d → keys (update d) = keys d) :
    ∃ c', c'.docs = updateFirst filter update c.docs ∧
      serveStore (.updateOne filter update) x c =
        (if x.fault = .none then
          .ok ((c.docs.find? filter).elim ⟨0, 0⟩ fun d ↦ ⟨1, if update d = d then 0 else 1⟩)
        else .error x.error, if x.fault = .refused then c else c') := by
  obtain ⟨c', hdocs, happly⟩ := c.apply_updateOne x.pick hkeys
  refine ⟨c', hdocs, ?_⟩
  unfold serveStore
  cases x.fault
  · rw [happly]
    rfl
  · rfl
  · rw [happly]
    rfl

/-- An insert that is refused, or would break a unique index, changes nothing. -/
theorem serveStore_insertOne_of_clash {d : α}
    (h : x.fault = .refused ∨ ¬ ((c.docs ++ [d]).flatMap keys).Nodup) :
    (serveStore (.insertOne d) x c).2 = c := by
  unfold serveStore
  cases hfault : x.fault with
  | refused => rfl
  | none | lost =>
    have hclash := h.resolve_left (by simp [hfault])
    simp only [Collection.apply, Collection.put, dif_neg hclash]

theorem serveStore_insertOne_of_unique {d : α} (hfault : x.fault ≠ .refused)
    (hunique : ((c.docs ++ [d]).flatMap keys).Nodup) :
    (serveStore (.insertOne d) x c).2 = ⟨c.docs ++ [d], hunique⟩ := by
  unfold serveStore
  cases hf : x.fault with
  | refused => exact absurd hf hfault
  | none | lost => simp only [Collection.apply, Collection.put, dif_pos hunique]

/-- An insert either adds the document or changes nothing and fails. -/
theorem serveStore_insertOne_cases (d : α) (x : Choice) (c : Collection α keys) :
    (serveStore (.insertOne d) x c).2.docs = c.docs ++ [d] ∨
      (serveStore (.insertOne d) x c).2 = c ∧ ∀ a, (serveStore (.insertOne d) x c).1 ≠ .ok a := by
  by_cases hclash : x.fault = .refused ∨ ¬ ((c.docs ++ [d]).flatMap keys).Nodup
  · refine .inr ⟨serveStore_insertOne_of_clash hclash, ?_⟩
    unfold serveStore
    intro a ha
    cases hfault : x.fault with
    | refused | lost =>
      simp only [hfault] at ha
      cases ha
    | none =>
      have hunique := hclash.resolve_left (by simp [hfault])
      simp only [hfault, Collection.apply, Collection.put, dif_neg hunique] at ha
      cases ha
  · rw [not_or, not_not] at hclash
    exact .inl (by rw [serveStore_insertOne_of_unique hclash.1 hclash.2])

/-- A replacement either takes the place of what it finds, or changes nothing and finds nothing. -/
theorem serveStore_replaceOne_cases (filter : α → Bool) (d : α) (x : Choice)
    (c : Collection α keys) :
    (∃ old, c.docs.find? filter = some old ∧
      (serveStore (.replaceOne filter d) x c).2.docs = updateFirst filter (fun _ ↦ d) c.docs) ∨
      (serveStore (.replaceOne filter d) x c).2 = c ∧
        ∀ result, (serveStore (.replaceOne filter d) x c).1 = .ok result → result.matchedCount = 0 := by
  cases hfound : c.docs.find? filter with
  | none =>
    refine .inr ⟨?_, ?_⟩
    · unfold serveStore
      cases x.fault <;> simp [Collection.apply, hfound]
    · intro result hresult
      unfold serveStore at hresult
      cases hfault : x.fault <;> simp only [hfault, Collection.apply, hfound] at hresult
      · exact Except.ok.inj hresult ▸ rfl
      · cases hresult
      · cases hresult
  | some old =>
    by_cases happly : x.fault ≠ .refused ∧ ((updateFirst filter (fun _ ↦ d) c.docs).flatMap keys).Nodup
    · refine .inl ⟨old, rfl, ?_⟩
      unfold serveStore
      cases hfault : x.fault with
      | refused => exact absurd hfault happly.1
      | none | lost => simp only [Collection.apply, hfound, Collection.put, dif_pos happly.2]
    · refine .inr ⟨?_, ?_⟩
      · unfold serveStore
        cases hfault : x.fault with
        | refused => rfl
        | none | lost =>
          have hbreach := (not_and.mp happly) (by simp [hfault])
          simp only [Collection.apply, hfound, Collection.put, dif_neg hbreach]
      · intro result hresult
        unfold serveStore at hresult
        cases hfault : x.fault with
        | refused | lost =>
          simp only [hfault] at hresult
          cases hresult
        | none =>
          have hbreach := (not_and.mp happly) (by simp [hfault])
          simp only [hfault, Collection.apply, hfound, Collection.put, dif_neg hbreach] at hresult
          cases hresult

end Stores

/-- The environment does what the law permits, and every completed run ends in `Q`. -/
abbrev Ends {α : Type} (law : Law) (Q : Except JsError α → World → Prop) (p : Async α) (w : World) :
    Prop :=
  wp (cluster law) (fun _ _ _ ↦ True) Q p w

/-- What is possible under a law is possible under any weaker one. -/
theorem executes_of_law {law law' : Law} (h : ∀ c x w, law c x w → law' c x w) {α : Type}
    {p : Async α} {w w' : World} {outcome : Outcome JsError α}
    (run : Executes (cluster law) p w outcome w') : Executes (cluster law') p w outcome w' := by
  induction run with
  | returned a w => exact .returned a w
  | threw e w => exact .threw e w
  | stopped p w => exact .stopped p w
  | call permitted _ ih => exact .call (m := cluster law') (h _ _ _ permitted) ih

section Rules

variable {law : Law} {w : World}

theorem ends_awaitCall (c : Call) {Q : Except JsError c.Answer → World → Prop}
    (h : ∀ x, law c x w → Q (respond c x w).1 (respond c x w).2) : Ends law Q (awaitCall c) w :=
  wp_ask.mpr fun x hx ↦ ⟨trivial, h x hx⟩

variable {filter : MasterApp → Bool}

theorem ends_findOneApp {Q : Except JsError (Option MasterApp) → World → Prop}
    (hok : Q (.ok (w.apps.docs.find? filter)) w)
    (herror : ∀ x, law (.apps (.findOne filter)) x w → x.fault ≠ .none → Q (.error x.error) w) :
    Ends law Q (Apps.findOne filter) w := by
  refine ends_awaitCall (.apps (.findOne filter)) fun x hx ↦ ?_
  simp only [respond, serveStore_findOne]
  split
  · exact hok
  next hfault => exact herror x hx hfault

theorem ends_findApps {Q : Except JsError (List MasterApp) → World → Prop}
    (hok : Q (.ok (w.apps.docs.filter filter)) w)
    (herror : ∀ x, law (.apps (.find filter)) x w → x.fault ≠ .none → Q (.error x.error) w) :
    Ends law Q (Apps.find filter) w := by
  refine ends_awaitCall (.apps (.find filter)) fun x hx ↦ ?_
  simp only [respond, serveStore_find]
  split
  · exact hok
  next hfault => exact herror x hx hfault

theorem ends_findNodes {Q : Except JsError (List MasterNode) → World → Prop}
    {filter : MasterNode → Bool} (hok : Q (.ok (w.nodes.docs.filter filter)) w)
    (herror : ∀ x, law (.nodes (.find filter)) x w → x.fault ≠ .none → Q (.error x.error) w) :
    Ends law Q (Nodes.find filter) w := by
  refine ends_awaitCall (.nodes (.find filter)) fun x hx ↦ ?_
  simp only [respond, serveStore_find]
  split
  · exact hok
  next hfault => exact herror x hx hfault

theorem ends_findWorkspaces {Q : Except JsError (List MasterWorkspace) → World → Prop}
    {filter : MasterWorkspace → Bool} (hok : Q (.ok (w.workspaces.docs.filter filter)) w)
    (herror : ∀ x, law (.workspaces (.find filter)) x w → x.fault ≠ .none → Q (.error x.error) w) :
    Ends law Q (Workspaces.find filter) w := by
  refine ends_awaitCall (.workspaces (.find filter)) fun x hx ↦ ?_
  simp only [respond, serveStore_find]
  split
  · exact hok
  next hfault => exact herror x hx hfault

variable {Q : Except JsError UpdateResult → World → Prop}

/-- An update of app records that keeps their index entries. -/
theorem ends_updateApp (hkeys : ∀ app, filter app → appKeys (update app) = appKeys app)
    (hok : ∀ apps : Collection MasterApp appKeys,
      apps.docs = updateFirst filter update w.apps.docs →
      Q (.ok ((w.apps.docs.find? filter).elim ⟨0, 0⟩
        fun app ↦ ⟨1, if update app = app then 0 else 1⟩)) { w with apps })
    (hlost : ∀ x, law (.apps (.updateOne filter update)) x w → x.fault = .lost →
      ∀ apps : Collection MasterApp appKeys, apps.docs = updateFirst filter update w.apps.docs →
      Q (.error x.error) { w with apps })
    (hrefused : ∀ x, law (.apps (.updateOne filter update)) x w → x.fault = .refused →
      Q (.error x.error) w) : Ends law Q (Apps.updateOne filter update) w := by
  refine ends_awaitCall (.apps (.updateOne filter update)) fun x hx ↦ ?_
  obtain ⟨apps, hdocs, hserve⟩ := serveStore_updateOne (c := w.apps) (x := x) hkeys
  simp only [respond, hserve]
  cases hfault : x.fault with
  | none => exact hok apps hdocs
  | refused => exact hrefused x hx hfault
  | lost => exact hlost x hx hfault apps hdocs

/-- An insert-if-absent of an app record that is absent, when the store does not fail. -/
theorem ends_upsertAbsentApp {fresh : MasterApp}
    (hlaw : ∀ x, law (.apps (.upsertOne filter update fresh)) x w → x.fault = .none)
    (habsent : ∀ app ∈ w.apps.docs, filter app = false)
    (hok : ∀ h : ((w.apps.docs ++ [fresh]).flatMap appKeys).Nodup,
      Q (.ok ⟨0, 0⟩) { w with apps := ⟨w.apps.docs ++ [fresh], h⟩ })
    (hclash : ¬ ((w.apps.docs ++ [fresh]).flatMap appKeys).Nodup → ∀ e, Q (.error e) w) :
    Ends law Q (Apps.upsertOne filter update fresh) w := by
  refine ends_awaitCall (.apps (.upsertOne filter update fresh)) fun x hx ↦ ?_
  have hfind : w.apps.docs.find? filter = none :=
    find?_eq_none.mpr fun app happ ↦ by simp [habsent app happ]
  have hserve : serveStore (.upsertOne filter update fresh) x w.apps =
      ((w.apps.put x.pick (w.apps.docs ++ [fresh]) fresh (⟨0, 0⟩ : UpdateResult)).1.mapError writeError,
        (w.apps.put x.pick (w.apps.docs ++ [fresh]) fresh (⟨0, 0⟩ : UpdateResult)).2) := by
    simp only [serveStore, hlaw x hx, Collection.apply, hfind]
  simp only [respond, hserve]
  unfold Collection.put
  split
  next h => exact hok h
  next h => exact hclash h _

/-- An event is inserted unless it is there; the store refuses neither. -/
theorem ends_upsertEvent {eventId : String} {fresh : AppLifecycleEvent}
    (hid : fresh.eventId = eventId) (hlaw : ∀ x, law (.lifecycleEvents
      (.upsertOne (fun event ↦ event.eventId == eventId) id fresh)) x w → x.fault = .none)
    (h : ∀ answer w', Quiet w w' → Q (.ok answer) w') :
    Ends law Q (LifecycleEvents.upsertOne (fun event ↦ event.eventId == eventId) fresh) w := by
  have hfilter : ∀ event : AppLifecycleEvent, (event.eventId == eventId) ↔
      (⟨["eventId"], [event.eventId]⟩ : IndexKey) = ⟨["eventId"], [fresh.eventId]⟩ := by
    simp [hid]
  refine ends_awaitCall (.lifecycleEvents (.upsertOne _ id fresh)) fun x hx ↦ ?_
  obtain ⟨answer, hanswer⟩ :=
    w.lifecycleEvents.apply_upsertOne_isOk x.pick (fun _ ↦ rfl) hfilter
  simp only [respond, serveStore, hlaw x hx, hanswer]
  exact h answer _ ⟨rfl, rfl, rfl, rfl, rfl, Int.le_refl _⟩

theorem World.app_of_updateFirst {apps : Collection MasterApp appKeys}
    (hdocs : apps.docs = updateFirst filter update w.apps.docs)
    (hfilter : ∀ app, filter app → app.appId = appId)
    (hupdate : ∀ app, (update app).appId = app.appId) (b : String) :
    ({ w with apps } : World).app b =
      (w.app b).map fun app ↦ if filter app then update app else app :=
  Collection.lookup_of_updateFirst (I := appIdentity) hdocs hfilter hupdate

theorem ends_now {Q : Except JsError Time → World → Prop}
    (h : ∀ time, w.clock ≤ time → Q (.ok time) { w with clock := time }) : Ends law Q now w := by
  refine ends_awaitCall (.service .now) fun x _ ↦ ?_
  exact h (w.clock + x.elapsed) (Int.le_add_of_nonneg_right (Int.natCast_nonneg _))

theorem ends_request {Q : Except JsError AgentResponse → World → Prop} {node : MasterNode}
    {workspaceId : String} {body : AgentRequest}
    (h : ∀ x, law (.request ⟨node.nodeId, workspaceId, body⟩) x w →
      Q (match x.answer with
        | some response => .ok response
        | none => .error x.error)
        { w with
          requests := w.requests ++ [⟨node.nodeId, workspaceId, body⟩]
          containers := if x.performed then
              SentRequest.perform ⟨node.nodeId, workspaceId, body⟩ x.containerId w.containers
            else w.containers }) :
    Ends law Q (request node workspaceId body) w :=
  ends_awaitCall (.request ⟨node.nodeId, workspaceId, body⟩) h

/-- Every task has settled, and each exactly once. -/
def Complete {n : Nat} {α : Type} (settled : List (Fin n × Except JsError α)) : Prop :=
  (settled.map Prod.fst).Perm (List.finRange n)

variable {α : Type}

theorem Complete.outcome {n : Nat} {settled : List (Fin n × Except JsError α)}
    (h : Complete settled) {r : Fin n × Except JsError α} (hr : r ∈ settled) :
    outcomeOf settled r.1 = r.2.toOption := by
  have hnodup : (settled.map Prod.fst).Nodup := h.nodup_iff.mpr (nodup_finRange n)
  have hfind : settled.find? (fun r' ↦ r'.1 = r.1) = some r :=
    (find?_id_eq_some hnodup).mpr ⟨hr, rfl⟩
  rw [outcomeOf, hfind]
  rfl

/-- What a batch returns is what its tasks returned. -/
theorem Complete.mem_results {n : Nat} {settled : List (Fin n × Except JsError α)}
    (h : Complete settled) {a : α} :
    a ∈ (finRange n).filterMap (outcomeOf settled) ↔ ∃ r ∈ settled, r.2 = .ok a := by
  constructor
  · intro ha
    obtain ⟨i, -, hi⟩ := mem_filterMap.mp ha
    obtain ⟨r, hr, hra⟩ := Option.bind_eq_some_iff.mp hi
    refine ⟨r, mem_of_find?_eq_some hr, ?_⟩
    cases hr2 : r.2 with
    | ok b => simpa [hr2, Except.toOption] using hra
    | error e => simp [hr2, Except.toOption] at hra
  · rintro ⟨r, hr, hra⟩
    refine mem_filterMap.mpr ⟨r.1, mem_finRange _, ?_⟩
    rw [h.outcome hr, hra]
    rfl

/-- The rule for a batch on any machine that answers in some order. -/
theorem wp_promiseAll {S X : Type} {m : Machine signature JsError S X} {G : Call → X → S → Prop}
    {Q : Except JsError (List α) → S → Prop} {tasks : List (Async α)}
    {J : List (Fin tasks.length × Except JsError α) → S → Prop} {s : S}
    (start : ∀ x, m.permits (.service (.arrivalOrder tasks.length)) x s →
      G (.service (.arrivalOrder tasks.length)) x s ∧
        ∃ order, (m.respond (.service (.arrivalOrder tasks.length)) x s).1 = .ok order ∧
          J [] (m.respond (.service (.arrivalOrder tasks.length)) x s).2)
    (step : ∀ settled i s', J settled s' →
      wp m G (fun r s'' ↦ J (settled ++ [(i, r)]) s'') (tasks.get i) s')
    (hreturn : ∀ settled s', Complete settled → J settled s' →
      (∀ r ∈ settled, ∃ a, r.2 = .ok a) →
      Q (.ok ((finRange tasks.length).filterMap (outcomeOf settled))) s')
    (hthrow : ∀ settled s' i e, Complete settled → J settled s' → (i, .error e) ∈ settled →
      Q (.error e) s') : wp m G Q (promiseAll tasks) s := by
  rw [promiseAll, wp_bind]
  refine wp_ask.mpr fun x hx ↦ ?_
  obtain ⟨hG, order, horder, hJ⟩ := start x hx
  refine ⟨hG, ?_⟩
  rw [horder]
  refine (wp_settleInOrder (fun settled i s' _ h ↦ step settled i s' h) hJ).bind
    (fun settled s' h ↦ ?_) fun e s' h ↦ h.elim
  obtain ⟨hfst, hJ⟩ := h
  have hcomplete : Complete settled := by
    rw [Complete, hfst]
    exact order.property
  split
  next i e hfind =>
    exact hthrow settled s' i e hcomplete hJ (mem_of_find?_eq_some hfind)
  next hfind =>
    refine hreturn settled s' hcomplete hJ fun r hr ↦ ?_
    cases hfind' : settled.find? (fun r ↦ !r.2.isOk) with
    | none =>
      have hok := find?_eq_none.mp hfind' r hr
      cases hr2 : r.2 with
      | ok a => exact ⟨a, rfl⟩
      | error e => simp [hr2, Except.isOk, Except.toBool] at hok
    | some r' =>
      obtain ⟨i, r'⟩ := r'
      cases r' with
      | ok a =>
        have := find?_some hfind'
        simp [Except.isOk, Except.toBool] at this
      | error e => exact absurd hfind' (hfind i e)

theorem ends_promiseAll {Q : Except JsError (List α) → World → Prop} {tasks : List (Async α)}
    {J : List (Fin tasks.length × Except JsError α) → World → Prop}
    (start : ∀ time, J [] { w with clock := time }) (step : ∀ settled i w', J settled w' →
      Ends law (fun r w'' ↦ J (settled ++ [(i, r)]) w'') (tasks.get i) w')
    (hreturn : ∀ settled w', Complete settled → J settled w' →
      (∀ r ∈ settled, ∃ a, r.2 = .ok a) →
      Q (.ok ((finRange tasks.length).filterMap (outcomeOf settled))) w')
    (hthrow : ∀ settled w' i e, Complete settled → J settled w' → (i, .error e) ∈ settled →
      Q (.error e) w') : Ends law Q (promiseAll tasks) w :=
  wp_promiseAll (fun x _ ↦ ⟨trivial, Service.serve x w (.arrivalOrder tasks.length),
    by simp [cluster, respond, Service.Fallible], start _⟩) step hreturn hthrow

/-- A batch with one task for each element, served in some order. -/
theorem wp_promiseAll_map {S X : Type} {m : Machine signature JsError S X} {G : Call → X → S → Prop}
    {Q : Except JsError (List α) → S → Prop} {xs : List β} {f : β → Async α}
    {J : List (β × Except JsError α) → S → Prop} {s : S}
    (start : ∀ x, m.permits (.service (.arrivalOrder (xs.map f).length)) x s →
      G (.service (.arrivalOrder (xs.map f).length)) x s ∧
        ∃ order, (m.respond (.service (.arrivalOrder (xs.map f).length)) x s).1 = .ok order ∧
          J [] (m.respond (.service (.arrivalOrder (xs.map f).length)) x s).2)
    (step : ∀ x ∈ xs, ∀ served s', J served s' →
      wp m G (fun r s'' ↦ J (served ++ [(x, r)]) s'') (f x) s')
    (hreturn : ∀ served s' rs, (served.map Prod.fst).Perm xs → J served s' →
      (∀ r ∈ served, ∃ a, r.2 = .ok a) → Q (.ok rs) s')
    (hthrow : ∀ served s' e, (served.map Prod.fst).Perm xs → J served s' → Q (.error e) s') :
    wp m G Q (promiseAll (xs.map f)) s := by
  let element (i : Fin (xs.map f).length) : β := xs.get (i.cast (length_map ..))
  let served (settled : List (Fin (xs.map f).length × Except JsError α)) :
      List (β × Except JsError α) := settled.map fun r ↦ (element r.1, r.2)
  have hall : (finRange (xs.map f).length).map element = xs := by
    apply ext_getElem
    · simp
    · simp [element]
  have hserved : ∀ settled, Complete settled → ((served settled).map Prod.fst).Perm xs := by
    intro settled hcomplete
    have hmap := hcomplete.map element
    rw [List.map_map, hall] at hmap
    rwa [List.map_map]
  apply wp_promiseAll (J := fun settled s' ↦ J (served settled) s')
  · exact start
  · intro settled i s' hJ
    have hget : (xs.map f).get i = f (element i) := by simp [element]
    rw [hget]
    apply (step (element i) (List.get_mem xs _) _ s' hJ).imp
    simp [served]
  · intro settled s' hcomplete hJ hok
    apply hreturn _ s' _ (hserved settled hcomplete) hJ
    intro r hr
    obtain ⟨r', hr', rfl⟩ := List.mem_map.mp hr
    exact hok r' hr'
  · intro settled s' i e hcomplete hJ _
    exact hthrow _ s' e (hserved settled hcomplete) hJ

theorem ends_promiseAll_map {Q : Except JsError (List α) → World → Prop} {xs : List β}
    {f : β → Async α} {J : List β → World → Prop} (start : ∀ time, J [] { w with clock := time })
    (step : ∀ x ∈ xs, ∀ served w', J served w' → Ends law (fun _ w'' ↦ J (served ++ [x]) w'') (f x) w')
    (h : ∀ served w' r, served.Perm xs → J served w' → Q r w') :
    Ends law Q (promiseAll (xs.map f)) w := by
  apply wp_promiseAll_map (J := fun served w' ↦ J (served.map Prod.fst) w')
  · intro x _
    exact ⟨trivial, Service.serve x w (.arrivalOrder _),
      by simp [cluster, respond, Service.Fallible], start _⟩
  · intro x hx served w' hJ
    apply (step x hx _ w' hJ).imp
    simp
  · exact fun served w' _ hperm hJ _ ↦ h _ w' _ hperm hJ
  · exact fun served w' _ hperm hJ ↦ h _ w' _ hperm hJ

/-- The program returns `a` and changes nothing that others see. -/
abbrev EndsQuietly {α : Type} (law : Law) (a : α) (p : Async α) (w : World) : Prop :=
  Ends law (fun r w' ↦ r = .ok a ∧ Quiet w w') p w

theorem endsQuietly_inTurn {a : α} {b : β} {p : Async α} {q : Async β} (hp : EndsQuietly law a p w)
    (hq : ∀ w', Quiet w w' → EndsQuietly law b q w') : EndsQuietly law (a, b) (inTurn p q) w := by
  rw [EndsQuietly, Ends, inTurn, wp_bind, wp_settle]
  refine hp.imp fun r w' hr ↦ ?_
  rw [hr.1, andThen_ok, wp_bind, wp_settle]
  refine (hq w' hr.2).imp fun r' w'' hr' ↦ ?_
  rw [hr'.1]
  exact ⟨rfl, hr.2.trans hr'.2⟩

/-- Two reads started together. -/
theorem endsQuietly_promiseBoth {a : α} {b : β} {p : Async α} {q : Async β}
    (hp : ∀ w', Quiet w w' → EndsQuietly law a p w')
    (hq : ∀ w', Quiet w w' → EndsQuietly law b q w') :
    EndsQuietly law (a, b) (promiseBoth p q) w := by
  rw [EndsQuietly, Ends, promiseBoth, wp_bind]
  refine ends_awaitCall (.service (.arrivalOrder 2)) fun x _ ↦ ?_
  have hquiet : Quiet w (respond (.service (.arrivalOrder 2)) x w).2 :=
    ⟨rfl, rfl, rfl, rfl, rfl, Int.le_add_of_nonneg_right (Int.natCast_nonneg _)⟩
  have horder : (respond (.service (.arrivalOrder 2)) x w).1 =
      .ok (Service.serve x w (.arrivalOrder 2)) := by simp [respond, Service.Fallible]
  rw [horder, andThen_ok]
  generalize (respond (.service (.arrivalOrder 2)) x w).2 = w₁ at hquiet ⊢
  split
  · refine (endsQuietly_inTurn (hp w₁ hquiet) fun w' h ↦ hq w' (hquiet.trans h)).imp fun r w' hr ↦ ?_
    exact ⟨hr.1, hquiet.trans hr.2⟩
  · rw [wp_bind]
    refine (endsQuietly_inTurn (hq w₁ hquiet) fun w' h ↦ hp w' (hquiet.trans h)).imp fun r w' hr ↦ ?_
    rw [hr.1]
    exact ⟨rfl, hquiet.trans hr.2⟩

end Rules

end PrivosCluster
