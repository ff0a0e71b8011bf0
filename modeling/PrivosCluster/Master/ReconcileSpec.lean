import PrivosCluster.Master.Revocation
import PrivosCluster.Master.Reconcile

/-!
# What a reconcile pass sends

The requests of a pass are a function of the records and of what the agents list. The pass looks
at the listed containers in order, and gives up on a listing when the record it reconstructs for
a container would take an app id or a label that is taken. It stops the containers it has looked
at that run and whose record is QUARANTINED, for whichever reason.
-/

namespace PrivosCluster

open AsyncProgram DocumentStore AppLifecycle List

variable {pairs : List (String × String)} {nodes : List MasterNode}

namespace Reconcile

/-! ## The pass as a function -/

/-- What adopting a container can depend on in a record: whose it is, and its index entries. -/
structure Row where
  workspaceId : String
  appId : String
  keys : List IndexKey

def rowOf (app : MasterApp) : Row := ⟨app.workspaceId, app.appId, appKeys app⟩

/-- The row of the record that a container's labels describe. -/
def rowOfContainer (workspaceId : String) (container : Container) : Row :=
  ⟨workspaceId, appIdOf container,
    [⟨["appId"], [appIdOf container]⟩, ⟨["subdomain"], [container.subdomain.getD ""]⟩]⟩

def isKnown (rows : List Row) (workspaceId appId : String) : Bool :=
  rows.any fun row ↦ row.appId == appId && row.workspaceId == workspaceId

/-- The rows after a container has been looked at; `none` when its record cannot be written. -/
def lookAt (rows : List Row) (workspaceId : String) (container : Container) : Option (List Row) :=
  if isKnown rows workspaceId (appIdOf container) || container.mcpV3 || !reconstructible container then
    some rows
  else if ((rows ++ [rowOfContainer workspaceId container]).flatMap Row.keys).Nodup then
    some (rows ++ [rowOfContainer workspaceId container])
  else none

/-- The containers of a listing that a pass looks at without failing, and the rows it leaves. -/
def examine (workspaceId : String) : List Row → List Container → List Container × List Row
  | rows, [] => ([], rows)
  | rows, container :: rest =>
    match lookAt rows workspaceId container with
    | none => ([], rows)
    | some rows' =>
      (container :: (examine workspaceId rows' rest).1, (examine workspaceId rows' rest).2)

/-- What the agents answer to the listing requests of a pass, by node and workspace. -/
abbrev Answers := String → String → Option AgentResponse

/-- The containers of an answer; an agent that is not reached or answers an error lists none. -/
def listingOf (answers : Answers) (nodeId workspaceId : String) : List Container :=
  match answers nodeId workspaceId with
  | none => []
  | some response => if 300 ≤ response.status then [] else response.body.containers

/-- One listing of a pass: the workspace, the node, and the containers looked at. -/
structure Visit where
  workspaceId : String
  nodeId : String
  examined : List Container

def visits (answers : Answers) : List Row → List (String × String) → List Visit × List Row
  | rows, [] => ([], rows)
  | rows, (workspaceId, nodeId) :: rest =>
    let listing := examine workspaceId rows (listingOf answers nodeId workspaceId)
    (⟨workspaceId, nodeId, listing.1⟩ :: (visits answers listing.2 rest).1,
      (visits answers listing.2 rest).2)

/-- The listings a pass asks for: every active workspace on every node that is not retired. -/
def asked (w : World) : List (String × String) :=
  (w.workspaces.docs.filter enumeratedWorkspace).flatMap fun workspace ↦
    (w.nodes.docs.filter enumeratedNode).map fun node ↦ (workspace.workspaceId, node.nodeId)

def isQuarantined (w : World) (workspaceId appId : String) : Bool :=
  w.apps.docs.any fun app ↦ byId workspaceId appId app && app.state == .quarantined

/-- The containers of a visit that the pass stops. -/
def isStopped (w : World) (workspaceId : String) (container : Container) : Bool :=
  isQuarantined w workspaceId (appIdOf container) && container.state == .running

def stopRequest (nodeId workspaceId containerId : String) : SentRequest :=
  ⟨nodeId, workspaceId, .power containerId .stop⟩

def requestsOf (w : World) (visit : Visit) : List SentRequest :=
  ⟨visit.nodeId, visit.workspaceId, .listApps⟩ ::
    (visit.examined.filter (isStopped w visit.workspaceId)).map fun container ↦
      stopRequest visit.nodeId visit.workspaceId container.id

/-- All requests of a pass, in order. -/
def sweep (answers : Answers) (w : World) : List SentRequest :=
  (visits answers (w.apps.docs.map rowOf) (asked w)).1.flatMap (requestsOf w)

/-- No store fails, and the agents answer the listing requests as given. -/
def Listing (answers : Answers) : Law := fun c x _ ↦
  x.fault = .none ∧
    ∀ nodeId workspaceId, c = .request ⟨nodeId, workspaceId, .listApps⟩ →
      x.answer = answers nodeId workspaceId

/-! ## The service sends what the function says -/

section Simulation

variable {answers : Answers} {w w' w'' : World} {rows : List Row} {sent : List SentRequest}
  {baseDomain workspaceId : String} {node : MasterNode} {container : Container}

/-- A pass that started in `w` has left these rows and sent these requests. -/
structure Along (w : World) (rows : List Row) (sent : List SentRequest) (w' : World) : Prop where
  rows : w'.apps.docs.map rowOf = rows
  quarantined : ∀ workspaceId appId, isQuarantined w' workspaceId appId = isQuarantined w workspaceId appId
  requests : w'.requests = w.requests ++ sent

theorem Along.refl (w : World) : Along w (w.apps.docs.map rowOf) [] w :=
  ⟨rfl, fun _ _ ↦ rfl, (append_nil _).symm⟩

theorem Along.of_quiet (h : Along w rows sent w') (hquiet : Quiet w' w'') : Along w rows sent w'' where
  rows := by
    rw [hquiet.apps]
    exact h.rows
  quarantined workspaceId appId := by
    rw [← h.quarantined, isQuarantined, isQuarantined, hquiet.apps]
  requests := hquiet.requests.trans h.requests

/-- An update that keeps the rows and leaves QUARANTINED alone. -/
theorem Along.of_update (h : Along w rows sent w') {apps : Collection MasterApp appKeys}
    {filter : MasterApp → Bool} {update : MasterApp → MasterApp}
    (hdocs : apps.docs = updateFirst filter update w'.apps.docs)
    (hrow : ∀ app, rowOf (update app) = rowOf app)
    (hstate : ∀ app ∈ w'.apps.docs, filter app →
      ((update app).state == .quarantined) = (app.state == .quarantined)) :
    Along w rows sent { w' with apps } where
  rows := (congrArg (List.map rowOf) hdocs).trans ((map_updateFirst hrow).trans h.rows)
  quarantined workspaceId appId := by
    rw [← h.quarantined workspaceId appId]
    unfold isQuarantined
    rw [show ({ w' with apps } : World).apps.docs = updateFirst filter update w'.apps.docs from hdocs]
    refine any_updateFirst fun app happ hf ↦ ?_
    have hsame : byId workspaceId appId (update app) = byId workspaceId appId app := by
      have hid := congrArg Row.appId (hrow app)
      have hworkspace := congrArg Row.workspaceId (hrow app)
      simp only [rowOf] at hid hworkspace
      simp [byId, hid, hworkspace]
    rw [hsame, hstate app happ hf]
  requests := h.requests

theorem Along.of_request (h : Along w rows sent w') (nodeId workspaceId : String)
    (body : AgentRequest) (x : Choice) :
    Along w rows (sent ++ [⟨nodeId, workspaceId, body⟩])
      (respond (.request ⟨nodeId, workspaceId, body⟩) x w').2 where
  rows := h.rows
  quarantined := h.quarantined
  requests := by simp [respond, h.requests]

theorem isKnown_rows (h : Along w rows sent w') (workspaceId appId : String) :
    isKnown rows workspaceId appId = (w'.apps.docs.find? (byId workspaceId appId)).isSome := by
  rw [← h.rows, isKnown, List.any_map, isSome_find?]
  rfl

theorem any_quarantined_find (h : Along w rows sent w') (workspaceId appId : String) :
    (w'.apps.docs.find? (byId workspaceId appId)).any (·.state == .quarantined) =
      isQuarantined w workspaceId appId := by
  rw [Collection.any_find?_docs (I := appIdentity) fun app happ ↦ (byId_iff.mp happ).1,
    ← h.quarantined]
  rfl

theorem seedLifecycle_ends {appId nodeId : String} :
    Ends (Listing answers) (fun r w'' ↦ r = .ok () ∧ Quiet w' w'')
      (seedLifecycle workspaceId appId nodeId container) w' := by
  unfold seedLifecycle
  rw [Ends, wp_onlyIf]
  split
  · rw [wp_bind]
    refine ends_upsertEvent rfl ?_ ?_
    · exact fun x hx ↦ hx.1
    · exact fun answer w'' hquiet ↦ ⟨rfl, hquiet⟩
  · exact ⟨rfl, Quiet.refl w'⟩

/-- What looking at one container sends. -/
def stopsOf (w : World) (workspaceId nodeId : String) (container : Container) : List SentRequest :=
  if isStopped w workspaceId container then [stopRequest nodeId workspaceId container.id] else []

/-- The container has been looked at without failing, and the pass has reached these rows. -/
def Examined {α : Type} (w : World) (rows : List Row) (sent : List SentRequest)
    (r : Except JsError α) (w' : World) : Prop :=
  (∃ a, r = .ok a) ∧ Along w rows sent w'

variable {result : Nat}

/-- A container whose record is quarantined is stopped if it runs. -/
theorem stopQuarantined_ends (h : Along w rows sent w')
    (hquarantined : isQuarantined w workspaceId (appIdOf container)) :
    Ends (Listing answers)
      (Examined w rows (sent ++ stopsOf w workspaceId node.nodeId container))
      (do
        Program.onlyIf (container.state = .running) (stopQuarantined workspaceId node container.id)
        .pure result) w' := by
  rw [Ends, wp_bind, wp_onlyIf]
  split
  next hrunning =>
    have hstops : stopsOf w workspaceId node.nodeId container =
        [stopRequest node.nodeId workspaceId container.id] := by
      rw [stopsOf, isStopped, hquarantined, hrunning]
      rfl
    rw [stopQuarantined, wp_bind, wp_settle, hstops]
    refine ends_awaitCall (.request ⟨node.nodeId, workspaceId, .power container.id .stop⟩)
      fun x _ ↦ ?_
    exact ⟨⟨result, rfl⟩, h.of_request node.nodeId workspaceId (.power container.id .stop) x⟩
  next hrunning =>
    have hstops : stopsOf w workspaceId node.nodeId container = [] := by
      rw [stopsOf, isStopped, if_neg (by simp [hrunning])]
    rw [hstops, append_nil]
    exact ⟨⟨result, rfl⟩, h⟩

theorem recordOom_ends (h : Along w rows sent w') {found : Option MasterApp} :
    Ends (Listing answers) (Examined w rows sent)
      (do
        recordOom workspaceId found container
        .pure result) w' := by
  rw [Ends, wp_bind]
  unfold recordOom
  split
  · rw [wp_onlyIf]
    split
    · rw [wp_bind]
      refine ends_updateApp (fun _ _ ↦ rfl) (fun apps hdocs ↦ ?_)
        (fun x hx hfault ↦ absurd (hx.1.symm.trans hfault) (by decide))
        fun x hx hfault ↦ absurd (hx.1.symm.trans hfault) (by decide)
      exact ⟨⟨result, rfl⟩, h.of_update hdocs (fun _ ↦ rfl) fun _ _ _ ↦ rfl⟩
    · exact ⟨⟨result, rfl⟩, h⟩
  · exact ⟨⟨result, rfl⟩, h⟩

theorem toUpperCase_ne_quarantined (state : ContainerState) :
    (state.toUpperCase == .quarantined) = false := by
  cases state <;> rfl

/-- Adopting a container into a record that is not quarantined. -/
theorem adopt_ends (h : Along w rows sent w')
    (hquarantined : isQuarantined w workspaceId (appIdOf container) = false) :
    Ends (Listing answers) (Examined w rows sent)
      (do
        adopt workspaceId node.nodeId container
        .pure result) w' := by
  rw [Ends, wp_bind, adopt, wp_bind]
  refine ends_awaitCall (.service .randomUUID) fun x _ ↦ ?_
  have huuid : (respond (.service .randomUUID) x w').1 = .ok x.text := rfl
  rw [huuid, andThen_ok, wp_bind]
  have h₁ := h.of_quiet (respond_quiet (c := .service .randomUUID) trivial x w')
  refine ends_now fun time htime ↦ ?_
  rw [andThen_ok, wp_bind]
  have h₂ : Along w rows sent { (respond (.service .randomUUID) x w').2 with clock := time } :=
    h₁.of_quiet ⟨rfl, rfl, rfl, rfl, rfl, htime⟩
  refine ends_updateApp (fun _ _ ↦ rfl) (fun apps hdocs ↦ ?_)
    (fun x hx hfault ↦ absurd (hx.1.symm.trans hfault) (by decide))
    fun x hx hfault ↦ absurd (hx.1.symm.trans hfault) (by decide)
  have h₃ := h₂.of_update hdocs (fun _ ↦ rfl) fun app happ hby ↦ by
    have hnot := h₂.quarantined workspaceId (appIdOf container)
    rw [hquarantined, isQuarantined, List.any_eq_false] at hnot
    have hstate := hnot app happ
    simp only [hby, Bool.true_and, Bool.not_eq_true] at hstate
    exact (toUpperCase_ne_quarantined container.state).trans hstate.symm
  refine seedLifecycle_ends.imp fun r w'' hseed ↦ ?_
  rw [hseed.1]
  exact ⟨⟨result, rfl⟩, h₃.of_quiet hseed.2⟩

theorem isQuarantined_eq_false_of_absent (h : Along w rows sent w')
    (habsent : isKnown rows workspaceId (appIdOf container) = false) :
    ∀ app ∈ w'.apps.docs, byId workspaceId (appIdOf container) app = false := by
  have hnone : w'.apps.docs.find? (byId workspaceId (appIdOf container)) = none := by
    rw [isKnown_rows h] at habsent
    simpa using habsent
  exact fun app happ ↦ by simpa using find?_eq_none.mp hnone app happ

/-- A record that is not there is reconstructed, unless its app id or its label is taken. -/
theorem insertReconstructed_ends (h : Along w rows sent w')
    (habsent : isKnown rows workspaceId (appIdOf container) = false) :
    Ends (Listing answers)
      (fun r w'' ↦
        if ((rows ++ [rowOfContainer workspaceId container]).flatMap Row.keys).Nodup then
          Examined w (rows ++ [rowOfContainer workspaceId container]) sent r w''
        else (∃ e, r = .error e) ∧ Along w rows sent w'')
      (do
        insertReconstructed baseDomain workspaceId node.nodeId container
        .pure result) w' := by
  rw [Ends, wp_bind, insertReconstructed, wp_bind]
  refine ends_now fun time htime ↦ ?_
  have h₁ : Along w rows sent { w' with clock := time } :=
    h.of_quiet ⟨rfl, rfl, rfl, rfl, rfl, htime⟩
  generalize ({ w' with clock := time } : World) = w₁ at h₁ ⊢
  rw [andThen_ok, wp_bind]
  refine ends_awaitCall (.service .randomUUID) fun x _ ↦ ?_
  have huuid : (respond (.service .randomUUID) x w₁).1 = .ok x.text := rfl
  have h₂ := h₁.of_quiet (respond_quiet (c := .service .randomUUID) trivial x w₁)
  rw [huuid, andThen_ok, wp_bind]
  generalize (respond (.service .randomUUID) x w₁).2 = w₂ at h₂ ⊢
  generalize hfresh : reconstruct baseDomain workspaceId node.nodeId x.text container time = fresh
  have hrow : rowOf fresh = rowOfContainer workspaceId container := by
    rw [← hfresh]
    rfl
  have hkeys : ∀ docs : List MasterApp, docs.map rowOf = rows →
      (docs ++ [fresh]).flatMap appKeys =
        (rows ++ [rowOfContainer workspaceId container]).flatMap Row.keys := by
    intro docs hdocs
    rw [← hrow, ← hdocs, ← map_singleton, ← map_append, flatMap_map]
    rfl
  refine ends_upsertAbsentApp (fun x hx ↦ hx.1) (isQuarantined_eq_false_of_absent h₂ habsent)
    (fun hnodup ↦ ?_) fun hclash e ↦ ?_
  · rw [hkeys _ h₂.rows] at hnodup
    have hstate : (fresh.state == .quarantined) = false := by
      rw [← hfresh]
      exact toUpperCase_ne_quarantined container.state
    have h₃ : Along w (rows ++ [rowOfContainer workspaceId container]) sent
        { w₂ with apps := ⟨w₂.apps.docs ++ [fresh], by rwa [hkeys _ h₂.rows]⟩ } := {
      rows := by rw [map_append, h₂.rows, map_singleton, hrow]
      quarantined := fun workspaceId appId ↦ by
        rw [← h₂.quarantined workspaceId appId, isQuarantined, isQuarantined, any_append,
          any_cons, hstate]
        simp
      requests := h₂.requests }
    refine seedLifecycle_ends.imp fun r w'' hseed ↦ ?_
    rw [hseed.1]
    simp only [andThen_ok, wp_pure, hnodup, if_true]
    exact ⟨⟨result, rfl⟩, h₃.of_quiet hseed.2⟩
  · rw [hkeys _ h₂.rows] at hclash
    rw [andThen_error, andThen_error, if_neg hclash]
    exact ⟨⟨e, rfl⟩, h₂⟩

/-- One listed container. -/
theorem reconcileContainer_ends (h : Along w rows sent w') :
    Ends (Listing answers)
      (fun r w'' ↦ (lookAt rows workspaceId container).elim
        ((∃ e, r = .error e) ∧ Along w rows sent w'') fun rows' ↦
          Examined w rows' (sent ++ stopsOf w workspaceId node.nodeId container) r w'')
      (reconcileContainer baseDomain workspaceId node container) w' := by
  rw [Ends, reconcileContainer, wp_bind]
  refine ends_findOneApp ?_ fun x hx hfault ↦ absurd hx.1 hfault
  have hknown := isKnown_rows h workspaceId (appIdOf container)
  have hquarantined := any_quarantined_find h workspaceId (appIdOf container)
  generalize w'.apps.docs.find? (byId workspaceId (appIdOf container)) = found at hknown hquarantined
  have hnostop (hnot : isQuarantined w workspaceId (appIdOf container) = false) :
      stopsOf w workspaceId node.nodeId container = [] := by
    rw [stopsOf, isStopped, hnot]
    rfl
  rw [andThen_ok]
  split
  next hstate =>
    rw [hquarantined] at hstate
    have hsome : found.isSome := by
      cases found with
      | none =>
        rw [← hquarantined] at hstate
        cases hstate
      | some app => rfl
    have hlook : lookAt rows workspaceId container = some rows := by
      rw [lookAt, hknown, hsome]
      rfl
    rw [hlook]
    exact stopQuarantined_ends h hstate
  next hstate =>
    rw [hquarantined, Bool.not_eq_true] at hstate
    rw [hnostop hstate, append_nil]
    split
    next hv3 =>
      have hlook : lookAt rows workspaceId container = some rows := by
        rw [lookAt, hknown]
        obtain hv3 | hv3 := hv3
        · simp [hv3]
        · cases found with
          | none => cases hv3
          | some app => simp
      rw [hlook]
      exact recordOom_ends h
    next hv3 =>
      rw [not_or] at hv3
      cases found with
      | some app =>
        have hlook : lookAt rows workspaceId container = some rows := by
          rw [lookAt, hknown]
          rfl
        rw [hlook]
        dsimp only
        split
        · exact ⟨⟨0, rfl⟩, h⟩
        · exact adopt_ends h hstate
      | none =>
        have habsent : isKnown rows workspaceId (appIdOf container) = false := hknown
        dsimp only
        split
        next hlabels =>
          have hlook : lookAt rows workspaceId container = some rows := by
            rw [lookAt, hlabels, Bool.or_true]
            rfl
          rw [hlook]
          exact ⟨⟨0, rfl⟩, h⟩
        next hlabels =>
          refine (insertReconstructed_ends h habsent).imp fun r w'' hr ↦ ?_
          unfold lookAt
          rw [if_neg (by simp [habsent, hv3.1, hlabels])]
          split at hr
          next hnodup =>
            rw [if_pos hnodup]
            exact hr
          next hclash =>
            rw [if_neg hclash]
            exact hr

theorem flatMap_stopsOf (nodeId : String) (containers : List Container) :
    containers.flatMap (stopsOf w workspaceId nodeId) =
      (containers.filter (isStopped w workspaceId)).map fun container ↦
        stopRequest nodeId workspaceId container.id := by
  induction containers with
  | nil => rfl
  | cons container rest ih =>
    rw [flatMap_cons, ih, stopsOf, filter_cons]
    split <;> rfl

variable {counts : Counts}

/-- The containers of one listing, up to the one at which the pass gives up. -/
theorem reconcileListing_ends (h : Along w rows sent w') {containers : List Container} :
    Ends (Listing answers)
      (Examined w (examine workspaceId rows containers).2
        (sent ++ (examine workspaceId rows containers).1.flatMap (stopsOf w workspaceId node.nodeId)))
      (reconcileListing baseDomain workspaceId node counts containers) w' := by
  induction containers generalizing counts rows sent w' with
  | nil => exact ⟨⟨counts, rfl⟩, by simpa [examine] using h⟩
  | cons container rest ih =>
    rw [Ends, reconcileListing, wp_bind, wp_settle]
    refine (reconcileContainer_ends h).imp fun r w'' hr ↦ ?_
    unfold examine
    cases hlook : lookAt rows workspaceId container with
    | none =>
      rw [hlook] at hr
      obtain ⟨⟨e, rfl⟩, h'⟩ := hr
      exact ⟨⟨_, rfl⟩, by simpa using h'⟩
    | some rows' =>
      rw [hlook] at hr
      obtain ⟨⟨repaired, rfl⟩, h'⟩ := hr
      refine (ih h').imp fun r w₃ hrest ↦ ?_
      rw [flatMap_cons, ← append_assoc]
      exact hrest

/-- One node, asked for the containers of one workspace. -/
theorem reconcileNode_ends (h : Along w rows sent w') :
    Ends (Listing answers)
      (Examined w
        (examine workspaceId rows (listingOf answers node.nodeId workspaceId)).2
        (sent ++ requestsOf w ⟨workspaceId, node.nodeId,
          (examine workspaceId rows (listingOf answers node.nodeId workspaceId)).1⟩))
      (reconcileNode baseDomain workspaceId counts node) w' := by
  rw [Ends, reconcileNode, wp_bind, wp_settle]
  refine ends_awaitCall (.request ⟨node.nodeId, workspaceId, .listApps⟩) fun x hx ↦ ?_
  have h₁ := h.of_request node.nodeId workspaceId .listApps x
  have hanswer : x.answer = answers node.nodeId workspaceId := hx.2 _ _ rfl
  have hempty : ∀ result : Counts, listingOf answers node.nodeId workspaceId = [] →
      Examined w
        (examine workspaceId rows (listingOf answers node.nodeId workspaceId)).2
        (sent ++ requestsOf w ⟨workspaceId, node.nodeId,
          (examine workspaceId rows (listingOf answers node.nodeId workspaceId)).1⟩)
        (.ok result) (respond (.request ⟨node.nodeId, workspaceId, .listApps⟩) x w').2 := by
    intro result hlisting
    rw [hlisting]
    exact ⟨⟨result, rfl⟩, h₁⟩
  cases hresponse : answers node.nodeId workspaceId with
  | none =>
    have herror : (respond (.request ⟨node.nodeId, workspaceId, .listApps⟩) x w').1 =
        .error x.error := by simp [respond, hanswer, hresponse]
    rw [herror]
    exact hempty _ (by simp [listingOf, hresponse])
  | some response =>
    have hok : (respond (.request ⟨node.nodeId, workspaceId, .listApps⟩) x w').1 =
        .ok response := by simp [respond, hanswer, hresponse]
    rw [hok, andThen_ok]
    dsimp only
    split
    next hstatus => exact hempty _ (by simp [listingOf, hresponse, hstatus])
    next hstatus =>
      have hlisting : listingOf answers node.nodeId workspaceId = response.body.containers := by
        simp [listingOf, hresponse, hstatus]
      rw [hlisting]
      refine (reconcileListing_ends h₁).imp fun r w'' hr ↦ ?_
      rw [flatMap_stopsOf, append_assoc] at hr
      exact hr

theorem visits_append (pairs more : List (String × String)) :
    visits answers rows (pairs ++ more) =
      ((visits answers rows pairs).1 ++ (visits answers (visits answers rows pairs).2 more).1,
        (visits answers (visits answers rows pairs).2 more).2) := by
  induction pairs generalizing rows with
  | nil => rfl
  | cons pair pairs ih => simp [visits, ih]

/-- The pass that started in `w` has made its visits to these pairs. -/
def Swept (answers : Answers) (w : World) (pairs : List (String × String)) (w' : World) : Prop :=
  Along w (visits answers (w.apps.docs.map rowOf) pairs).2
    ((visits answers (w.apps.docs.map rowOf) pairs).1.flatMap (requestsOf w)) w'

theorem reconcileNode_sweeps (h : Swept answers w pairs w') :
    Ends (Listing answers)
      (onOutcome (fun _ ↦ Swept answers w (pairs ++ [(workspaceId, node.nodeId)])) fun _ _ ↦ False)
      (reconcileNode baseDomain workspaceId counts node) w' := by
  refine (reconcileNode_ends h).imp fun r w'' hr ↦ ?_
  obtain ⟨⟨result, rfl⟩, hr⟩ := hr
  rw [onOutcome_ok, Swept, visits_append]
  simpa [visits] using hr

theorem Swept.start : Swept answers w [] w := by
  simpa [Swept, visits] using Along.refl w

theorem reconcileNodes_sweep (h : Swept answers w pairs w') :
    Ends (Listing answers)
      (onOutcome
        (fun _ ↦ Swept answers w (pairs ++ nodes.map fun node ↦ (workspaceId, node.nodeId)))
        fun _ _ ↦ False)
      (Program.foldEach (reconcileNode baseDomain workspaceId) counts nodes) w' := by
  refine wp_foldEach
    (I := fun (visited : List MasterNode) _ ↦
      Swept answers w (pairs ++ visited.map fun node ↦ (workspaceId, node.nodeId)))
    (fun visited node rest counts w'' _ h ↦ ?_) (by simpa using h)
  rw [map_append, ← append_assoc]
  exact reconcileNode_sweeps h

theorem reconcileWorkspaces_sweep (h : Swept answers w [] w') {workspaces : List MasterWorkspace} :
    Ends (Listing answers)
      (onOutcome
        (fun _ ↦ Swept answers w (workspaces.flatMap fun workspace ↦
          nodes.map fun node ↦ (workspace.workspaceId, node.nodeId)))
        fun _ _ ↦ False)
      (Program.foldEach
        (fun counts (workspace : MasterWorkspace) ↦
          Program.foldEach (reconcileNode baseDomain workspace.workspaceId) counts nodes)
        counts workspaces) w' := by
  refine wp_foldEach
    (I := fun (visited : List MasterWorkspace) _ ↦ Swept answers w (visited.flatMap fun workspace ↦
      nodes.map fun node ↦ (workspace.workspaceId, node.nodeId)))
    (fun visited workspace rest counts w'' _ h ↦ ?_) h
  rw [flatMap_append, flatMap_singleton]
  exact reconcileNodes_sweep h

/-- A pass sends the requests of its sweep and no others. -/
theorem run_ends :
    Ends (Listing answers) (fun _ w' ↦ w'.requests = w.requests ++ sweep answers w)
      (run baseDomain) w := by
  rw [Ends, run, wp_bind]
  refine (endsQuietly_promiseBoth (a := w.workspaces.docs.filter enumeratedWorkspace)
    (b := w.nodes.docs.filter enumeratedNode) (fun w₁ h₁ ↦ ?_) fun w₁ h₁ ↦ ?_).imp fun r w₁ hr ↦ ?_
  · rw [← h₁.workspaces]
    exact ends_findWorkspaces ⟨rfl, Quiet.refl w₁⟩ fun x hx hfault ↦ absurd hx.1 hfault
  · rw [← h₁.nodes]
    exact ends_findNodes ⟨rfl, Quiet.refl w₁⟩ fun x hx hfault ↦ absurd hx.1 hfault
  · rw [hr.1]
    have hstart : Swept answers w [] w₁ := Along.of_quiet Swept.start hr.2
    refine (reconcileWorkspaces_sweep hstart).imp fun r w' h ↦ ?_
    cases r with
    | ok counts => exact Along.requests h
    | error e => exact h.elim

end Simulation

end Reconcile

end PrivosCluster
