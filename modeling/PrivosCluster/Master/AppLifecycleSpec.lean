import PrivosCluster.Master.AppLifecycle
import PrivosCluster.Master.Calls

/-!
# What the lifecycle operations do

Frames of the helpers that only record or publish, and what quarantining an app leaves behind.
-/

namespace PrivosCluster

open AsyncProgram DocumentStore List

/-- The call changes no record of an app, node or workspace and reaches no agent. -/
def Call.IsQuiet : Call → Prop
  | .apps op => op.IsRead
  | .nodes op => op.IsRead
  | .workspaces op => op.IsRead
  | .request _ => False
  | _ => True

theorem respond_quiet {c : Call} (hc : c.IsQuiet) (x : Choice) (w : World) :
    Quiet w (respond c x w).2 := by
  cases c with
  | apps op | nodes op | workspaces op =>
    simp only [respond, serveStore_of_isRead hc]
    exact Quiet.refl w
  | request => exact hc.elim
  | service =>
    exact ⟨rfl, rfl, rfl, rfl, rfl, Int.le_add_of_nonneg_right (Int.natCast_nonneg _)⟩
  | runtimeResourceInventories | lifecycleEvents | acquire | release =>
    exact ⟨rfl, rfl, rfl, rfl, rfl, Int.le_refl _⟩

abbrev IsQuiet {α : Type} (law : Law) (p : Async α) : Prop :=
  Meets (cluster law) (.frame Quiet) (fun _ ↦ True) p

variable {law : Law} {w : World}

theorem quiet_awaitCall {c : Call} (hc : c.IsQuiet) : IsQuiet law (awaitCall c) :=
  Meets.ask fun x w _ _ ↦ ⟨respond_quiet hc x w, fun _ _ ↦ trivial⟩

variable {α : Type} {workspaceId appId nodeId : String} {deps : LifecycleDeps}
  {nodes : List MasterNode} {node : MasterNode} {body : AgentRequest}

theorem IsQuiet.ends {p : Async α} {Q : Except JsError α → World → Prop} (h : IsQuiet law p)
    (hQ : ∀ r w', Quiet w w' → Q r w') : Ends law Q p w :=
  (Meets.frame Quiet.refl (fun _ _ _ ↦ Quiet.trans) h w).imp fun r w' hr ↦ hQ r w' hr.1

namespace AppLifecycle

theorem quiet_insertReplicaEvents {app : MasterApp} {replicas : List AppReplica}
    {type : LifecycleEventType} {resources : ContainerResources} {storageBytes : Option Nat}
    {time : Time} :
    IsQuiet law (insertReplicaEvents workspaceId app replicas type resources storageBytes time) := by
  refine Meets.bind (R := fun _ ↦ True) ?_ fun events _ ↦ quiet_awaitCall trivial
  refine Meets.imp (Meets.mapEach (Q := fun _ ↦ True) fun replica _ ↦ ?_) fun _ _ ↦ trivial
  exact Meets.bind (quiet_awaitCall trivial) fun eventId _ ↦ trivial

theorem quiet_publish : IsQuiet law (publish deps) :=
  Meets.onlyIf fun _ ↦ quiet_awaitCall trivial

theorem byId_iff {app : MasterApp} :
    byId workspaceId appId app ↔ app.appId = appId ∧ app.workspaceId = workspaceId := by
  simp [byId]

/-- The nodes loaded for a list of ids are the known ones. -/
theorem nodeOf_filter {ids : List String} (h : nodeId ∈ ids) :
    nodeOf (nodes.filter fun node ↦ ids.contains node.nodeId) nodeId = nodeOf nodes nodeId := by
  unfold nodeOf
  rw [find?_filter]
  congr 1
  funext node
  by_cases hnode : node.nodeId = nodeId
  · simp [hnode, h]
  · simp [hnode]

theorem nodeId_of_nodeOf (h : nodeOf nodes nodeId = some node) : node.nodeId = nodeId := by
  simpa using find?_some h

end AppLifecycle

/-! ## Requests in flight together -/

/-- No record has changed; requests have been sent, and agents may have acted on them. -/
structure OnlyTalks (w w' : World) : Prop where
  apps : w'.apps = w.apps
  nodes : w'.nodes = w.nodes
  workspaces : w'.workspaces = w.workspaces
  requests : ∀ sent ∈ w.requests, sent ∈ w'.requests

theorem OnlyTalks.refl (w : World) : OnlyTalks w w := ⟨rfl, rfl, rfl, fun _ h ↦ h⟩

theorem OnlyTalks.trans {w w' w'' : World} (h : OnlyTalks w w') (h' : OnlyTalks w' w'') :
    OnlyTalks w w'' where
  apps := h'.apps.trans h.apps
  nodes := h'.nodes.trans h.nodes
  workspaces := h'.workspaces.trans h.workspaces
  requests sent hsent := h'.requests sent (h.requests sent hsent)

theorem OnlyTalks.app {w w' : World} (h : OnlyTalks w w') (appId : String) :
    w'.app appId = w.app appId := by
  rw [World.app, World.app, h.apps]

theorem onlyTalks_request :
    Meets (cluster law) (.frame OnlyTalks) (fun _ ↦ True) (request node workspaceId body) :=
  Meets.ask fun _ _ _ _ ↦
    ⟨⟨rfl, rfl, rfl, fun _ h ↦ mem_append_left _ h⟩, fun _ _ ↦ trivial⟩

/-- However the program ends, it has sent the request. -/
def Sends {α : Type} (law : Law) (p : Async α) (sent : SentRequest) : Prop :=
  ∀ w, Ends law (fun _ w' ↦ sent ∈ w'.requests) p w

theorem sends_request :
    Sends law (request node workspaceId body) ⟨node.nodeId, workspaceId, body⟩ :=
  fun _ ↦ ends_request fun _ _ ↦ by simp

theorem Sends.settle {p : Async α} {sent : SentRequest} (h : Sends law p sent) :
    Sends law p.settle sent :=
  fun w ↦ wp_settle.mpr (h w)

/-- All of the requests have been sent when the batch has settled, even if it is rejected. -/
theorem ends_promiseAll_sends {Q : Except JsError (List α) → World → Prop} {tasks : List (Async α)}
    (hframe : ∀ p ∈ tasks, Meets (cluster law) (.frame OnlyTalks) (fun _ ↦ True) p)
    (hQ : ∀ r w', OnlyTalks w w' → (∀ p ∈ tasks, ∀ sent, Sends law p sent → sent ∈ w'.requests) →
      Q r w') : Ends law Q (promiseAll tasks) w := by
  let J (settled : List (Fin tasks.length × Except JsError α)) (w' : World) : Prop :=
    OnlyTalks w w' ∧ ∀ r ∈ settled, ∀ sent, Sends law (tasks.get r.1) sent → sent ∈ w'.requests
  have hdone : ∀ settled w', Complete settled → J settled w' → ∀ r, Q r w' := by
    intro settled w' hcomplete hJ r
    refine hQ r w' hJ.1 fun p hp sent hsends ↦ ?_
    obtain ⟨i, rfl⟩ := List.get_of_mem hp
    have hi : i ∈ settled.map Prod.fst := hcomplete.mem_iff.mpr (mem_finRange i)
    obtain ⟨r, hr, rfl⟩ := List.mem_map.mp hi
    exact hJ.2 r hr sent hsends
  refine ends_promiseAll (J := J) ?_ ?_ ?_ ?_
  · exact fun time ↦ ⟨⟨rfl, rfl, rfl, fun _ h ↦ h⟩, nofun⟩
  · intro settled i w' hJ
    have hframe' := Meets.frame OnlyTalks.refl (fun _ _ _ ↦ OnlyTalks.trans)
      (hframe _ (List.get_mem tasks i)) w'
    refine wp_of_executes fun r w'' hexec ↦ ?_
    have htalks : OnlyTalks w' w'' := (hexec.post hframe').1
    refine ⟨hJ.1.trans htalks, fun r' hr' sent hsends ↦ ?_⟩
    obtain hr' | hr' := mem_append.mp hr'
    · exact htalks.requests sent (hJ.2 r' hr' sent hsends)
    · obtain rfl : r' = (i, r) := by simpa using hr'
      exact hexec.post (hsends w')
  · exact fun settled w' hcomplete hJ _ ↦ hdone settled w' hcomplete hJ _
  · exact fun settled w' i e hcomplete hJ _ ↦ hdone settled w' hcomplete hJ _

/-! ## Quarantine -/

namespace AppLifecycle

/-- The stop command for a replica of a revoked app. -/
def stopCommand (workspaceId : String) (replica : AppReplica) : SentRequest :=
  ⟨replica.nodeId, workspaceId, .power replica.containerId .stop⟩

/-- A quarantine that returns has stopped what it could and started the grace clock. -/
theorem quarantine_ends {app : MasterApp} (hstate : app.state ≠ .quarantined) :
    Ends law (fun r w' ↦ r = .ok () →
      (∃ time, ∀ b, w'.app b =
        (w.app b).map fun d ↦ if byId workspaceId appId d then quarantinedAs time d else d) ∧
      ∀ replica ∈ app.replicas, (nodeOf w.nodes.docs replica.nodeId).isSome →
        stopCommand workspaceId replica ∈ w'.requests)
      (quarantine deps workspaceId appId app) w := by
  rw [Ends, quarantine, if_neg hstate, wp_bind]
  refine ends_findNodes ?_ fun x _ _ h ↦ by cases h
  rw [andThen_ok, wp_bind]
  refine ends_promiseAll_sends ?_ fun r w₁ htalks hsent ↦ ?_
  · intro p hp
    obtain ⟨replica, -, hp⟩ := mem_filterMap.mp hp
    obtain ⟨node, -, rfl⟩ := Option.map_eq_some_iff.mp hp
    exact onlyTalks_request.settle.imp fun _ _ ↦ trivial
  cases r with
  | error e => exact fun h ↦ by cases h
  | ok results =>
    have hstops : ∀ replica ∈ app.replicas, (nodeOf w.nodes.docs replica.nodeId).isSome →
        stopCommand workspaceId replica ∈ w₁.requests := by
      intro replica hreplica hknown
      obtain ⟨node, hnode⟩ := Option.isSome_iff_exists.mp hknown
      have hloaded : nodeOf (w.nodes.docs.filter fun node ↦
          (app.replicas.map (·.nodeId)).contains node.nodeId) replica.nodeId = some node := by
        rw [nodeOf_filter (List.mem_map_of_mem hreplica), hnode]
      have hid := nodeId_of_nodeOf hnode
      refine hsent _ (mem_filterMap.mpr ⟨replica, hreplica, ?_⟩) _
        (hid ▸ Sends.settle sends_request)
      rw [hloaded]
      rfl
    rw [andThen_ok, wp_bind]
    refine ends_now fun time _ ↦ ?_
    rw [andThen_ok, wp_bind]
    refine ends_updateApp (fun _ _ ↦ rfl) (fun apps hdocs ↦ ?_) (fun _ _ _ _ _ h ↦ by cases h)
      fun _ _ _ h ↦ by cases h
    have hrest : IsQuiet law (do
        insertReplicaEvents workspaceId app app.replicas .quarantined app.resources none time
        publish deps) :=
      Meets.bind quiet_insertReplicaEvents fun _ _ ↦ quiet_publish
    refine hrest.ends fun r w' hquiet _ ↦ ⟨⟨time, fun b ↦ ?_⟩, fun replica hreplica hknown ↦ ?_⟩
    · have happ := World.app_of_updateFirst hdocs (fun app h ↦ (byId_iff.mp h).1) (fun _ ↦ rfl) b
      rw [hquiet.app, happ]
      exact congrArg _ (htalks.app b)
    · rw [hquiet.requests]
      exact hstops replica hreplica hknown

end AppLifecycle

end PrivosCluster
