import PrivosCluster.AsyncProgram.Tracing
import PrivosCluster.Master.Footprint
import PrivosCluster.Master.RuntimeSwap

/-!
# The runs of an upgrade

An upgrade reads, then swaps the replicas forward until one fails, then writes the record, and on
any failure since the first swap sends every swapped replica back. What a run did can be read off
the calls it made and the choices they met.
-/

namespace PrivosCluster

open AsyncProgram DocumentStore DeploymentV3 List AppLifecycle Option

variable {w' : World} {calls : List (Call × Choice)} {c : Call} {e : JsError}
  {r : Except JsError Upgraded}

variable {α : Type} {Q : Except JsError α → World → List (Call × Choice) → Prop} {w₁ : World}
  {a : c.Answer}

namespace RuntimeSwap

/-- The request that puts a replica on an image. -/
def redeployCall (swap : Swap) (replica : AppReplica) (digest manifestDigest : String) : Call :=
  .request ⟨replica.nodeId, swap.workspaceId,
    .redeploy replica.containerId (redeployBody swap replica digest manifestDigest)⟩

def forwardCall (swap : Swap) (replica : AppReplica) : Call :=
  redeployCall swap replica swap.command.targetImageDigest swap.command.targetManifestDigest

def revertCall (swap : Swap) (replica : AppReplica) : Call :=
  redeployCall swap replica swap.command.previousImageDigest swap.command.previousManifestDigest

/-- The forward swap of some replicas: the calls, the replicas swapped, and how it failed. -/
inductive Forwards (swap : Swap) :
    List AppReplica → List (Call × Choice) → List Swapped → Option (JsError × Option Bool) → Prop where
  | done : Forwards swap [] [] [] none
  | swapped {replica : AppReplica} {rest : List AppReplica} {x : Choice} {response : AgentResponse}
      {swapStrategy : SwapStrategy} {calls : List (Call × Choice)} {succeeded : List Swapped}
      {failure : Option (JsError × Option Bool)} (answered : x.answer = some response)
      (accepted : response.status < 300)
      (strategy : swapStrategy? response.body.swapStrategy = some swapStrategy)
      (others : Forwards swap rest calls succeeded failure) :
      Forwards swap (replica :: rest) ((forwardCall swap replica, x) :: calls)
        (⟨replica, swapStrategy, response.body⟩ :: succeeded) failure
  | rejected {replica : AppReplica} {rest : List AppReplica} {x : Choice}
      (unanswered : x.answer = none) :
      Forwards swap (replica :: rest) [(forwardCall swap replica, x)] [] (some (x.error, none))
  | refused {replica : AppReplica} {rest : List AppReplica} {x : Choice} {response : AgentResponse}
      (answered : x.answer = some response) (refusal : 300 ≤ response.status) :
      Forwards swap (replica :: rest) [(forwardCall swap replica, x)] []
        (some ({ message := "agent MCP v3 upgrade failed: " ++ response.body.json },
          response.body.recovered))
  | unreadable {replica : AppReplica} {rest : List AppReplica} {x : Choice}
      {response : AgentResponse} (answered : x.answer = some response)
      (accepted : response.status < 300)
      (strategy : swapStrategy? response.body.swapStrategy = none) :
      Forwards swap (replica :: rest) [(forwardCall swap replica, x)] []
        (some ({ message := "agent_mcp_v3_upgrade_response_invalid" }, none))

/-- Whether an agent confirmed a request. -/
def confirmed (x : Choice) : Bool := x.answer.any (·.status < 300)

/-- The calls that send replicas back, in their order. -/
def Reverts (swap : Swap) (succeeded : List Swapped) (calls : List (Call × Choice)) : Prop :=
  calls.map (·.1) = succeeded.map fun entry ↦ revertCall swap entry.replica

/-! ## Writing the swap down -/

def persistFilter (swap : Swap) (candidate : MasterApp) : Bool :=
  AppLifecycle.byId swap.workspaceId swap.app.appId candidate &&
    candidate.mcpAppliedRevision.all (· < swap.command.revision)

def persistedAs (swap : Swap) (swapStrategy : SwapStrategy) (time : Time) : MasterApp → MasterApp :=
  upgradedAs swap.command (imageRepositoryOf swap.app.image ++ "@" ++ swap.command.targetImageDigest)
    swapStrategy time

def persistCall (swap : Swap) (swapStrategy : SwapStrategy) (time : Time) : Call :=
  .apps (.updateOne (persistFilter swap) (persistedAs swap swapStrategy time))

def rereadCall (swap : Swap) : Call :=
  .apps (.findOne (AppLifecycle.byId swap.workspaceId swap.app.appId))

/-- The record of the swapped app takes the command. -/
structure Current (swap : Swap) (w : World) : Prop where
  record : w.app swap.app.appId = some swap.app
  takes : persistFilter swap swap.app = true

/-- A time that the clock can show. -/
def Clocked (law : Law) (time : Time) : Prop :=
  ∃ x w, law (.service .now) x w ∧ time = w.clock + x.elapsed

/-- The record carries the command, and no other record has changed. -/
structure Written (law : Law) (swap : Swap) (w w' : World) (app : MasterApp) : Prop where
  record : w'.app swap.app.appId = some app
  strategy : ∃ swapStrategy time, Clocked law time ∧ app = persistedAs swap swapStrategy time swap.app
  others : ∀ appId, appId ≠ swap.app.appId → w'.app appId = w.app appId

/-- How the record is written and read back, while nobody else writes it. -/
inductive Persists (law : Law) (swap : Swap) (swapStrategy : SwapStrategy) (w : World) :
    Except JsError (Option MasterApp) → World → List (Call × Choice) → Prop where
  | refused {time : Time} {x x' : Choice} {w' : World} (fault : x'.fault = .refused)
      (apps : w'.apps = w.apps) :
      Persists law swap swapStrategy w (.error x'.error) w'
        [(.service .now, x), (persistCall swap swapStrategy time, x')]
  | lost {time : Time} {x x' : Choice} {w' : World} {app : MasterApp} (fault : x'.fault = .lost)
      (written : Written law swap w w' app) :
      Persists law swap swapStrategy w (.error x'.error) w'
        [(.service .now, x), (persistCall swap swapStrategy time, x')]
  | unread {time : Time} {x x' x'' : Choice} {w' : World} {app : MasterApp}
      (fault : x'.fault = .none) (fault' : x''.fault ≠ .none) (written : Written law swap w w' app) :
      Persists law swap swapStrategy w (.error x''.error) w'
        [(.service .now, x), (persistCall swap swapStrategy time, x'), (rereadCall swap, x'')]
  | written {time : Time} {x x' x'' : Choice} {w' : World} {app : MasterApp}
      (fault : x'.fault = .none) (fault' : x''.fault = .none) (written : Written law swap w w' app) :
      Persists law swap swapStrategy w (.ok (some app)) w'
        [(.service .now, x), (persistCall swap swapStrategy time, x'), (rereadCall swap, x'')]

/-- How an upgrade concludes after its forward swap. -/
inductive Concludes (law : Law) (swap : Swap) (forward : Forward) (w : World) :
    Except UpgradeFailure Upgraded → World → List (Call × Choice) → Prop where
  | failed {error : JsError} {recovered : Option Bool}
      (failure : forward.failure = some (error, recovered)) :
      Concludes law swap forward w (.error { error, recovered }) w []
  | inconsistent (succeeded : forward.failure = none)
      (mixed : commonStrategy forward.succeeded = none) :
      Concludes law swap forward w
        (.error { error := { message := "mcp_v3_upgrade_swap_strategy_inconsistent" } }) w []
  | unwritten {swapStrategy : SwapStrategy} {error : JsError} {w' : World}
      {calls : List (Call × Choice)} (succeeded : forward.failure = none)
      (common : commonStrategy forward.succeeded = some swapStrategy)
      (persists : Persists law swap swapStrategy w (.error error) w' calls) :
      Concludes law swap forward w (.error { error }) w' calls
  | upgraded {swapStrategy : SwapStrategy} {app : MasterApp} {w' : World}
      {calls : List (Call × Choice)} (succeeded : forward.failure = none)
      (common : commonStrategy forward.succeeded = some swapStrategy)
      (persists : Persists law swap swapStrategy w (.ok (some app)) w' calls) :
      Concludes law swap forward w
        (.ok ⟨app, swapStrategy, DeploymentV3.consolidateReportedSecurityProfile
          (forward.succeeded.map (·.body)) swap.app.replicas.length⟩) w' calls

section

variable {law : Law} {swap : Swap} {w : World}

theorem traces_awaitCall (c : Call) {Q : Except JsError c.Answer → World → List (Call × Choice) → Prop}
    (h : ∀ x, law c x w → Q (respond c x w).1 (respond c x w).2 [(c, x)]) :
    Traces (cluster law) Q (awaitCall c) w :=
  Traces.ask h

/-- Asking for the time before going on. -/
theorem traces_now {f : Time → Async α} (h : ∀ time x w', Clocked law time → w'.apps = w.apps →
      Traces (cluster law) (fun r w'' calls ↦ Q r w'' ((.service .now, x) :: calls)) (f time) w') :
    Traces (cluster law) Q (now >>= f) w :=
  fun x hx ↦ h (w.clock + x.elapsed) x _ ⟨x, w, hx, rfl⟩ rfl

/-- Looking up a record before going on. -/
theorem traces_findOneApp (filter : MasterApp → Bool) {f : Option MasterApp → Async α}
    (hok : ∀ x : Choice, x.fault = .none → Traces (cluster law)
      (fun r w' calls ↦ Q r w' ((.apps (.findOne filter), x) :: calls))
      (f (w.apps.docs.find? filter)) w) (herror : ∀ x : Choice, x.fault ≠ .none →
      Q (.error x.error) w [(.apps (.findOne filter), x)]) :
    Traces (cluster law) Q (Apps.findOne filter >>= f) w := by
  refine Traces.bind (R := fun (r : Except JsError (Option MasterApp)) w' calls ↦
    ∃ x, calls = [((.apps (.findOne filter) : Call), x)] ∧ w' = w ∧
      r = if x.fault = .none then .ok (w.apps.docs.find? filter) else .error x.error)
    (traces_awaitCall (.apps (.findOne filter)) fun x _ ↦ ⟨x, rfl, ?_, ?_⟩) ?_ ?_
  · simp only [respond, serveStore_findOne]
  · simp only [respond, serveStore_findOne]
  · rintro found w' calls ⟨x, rfl, rfl, hfound⟩
    split at hfound
    next hfault =>
      rw [Except.ok.inj hfound]
      exact hok x hfault
    next => cases hfound
  · rintro e w' calls ⟨x, rfl, rfl, hfound⟩
    split at hfound
    next => cases hfound
    next hfault =>
      rw [Except.error.inj hfound]
      exact herror x hfault

theorem traces_requestRedeploy {replica : AppReplica} {digest manifestDigest : String}
    (hnode : (nodeOf swap.nodes replica.nodeId).isSome)
    {Q : Except JsError AgentResponse → World → List (Call × Choice) → Prop}
    (h : ∀ x, law (redeployCall swap replica digest manifestDigest) x w →
      ∀ w', w'.apps = w.apps →
      Q (match x.answer with | some response => .ok response | none => .error x.error) w'
        [(redeployCall swap replica digest manifestDigest, x)]) :
    Traces (cluster law) Q (requestRedeploy swap replica digest manifestDigest) w := by
  obtain ⟨node, hnode⟩ := isSome_iff_exists.mp hnode
  rw [requestRedeploy, hnode, requestNode, request, nodeId_of_nodeOf hnode]
  exact Traces.ask fun x hx ↦ h x hx _ rfl

variable {succeeded : List Swapped}

theorem swapForward_traces {replicas : List AppReplica}
    (hnodes : ∀ replica ∈ replicas, (nodeOf swap.nodes replica.nodeId).isSome) :
    Traces (cluster law) (fun r w' calls ↦ ∃ more failure,
      r = .ok ⟨succeeded ++ more, failure⟩ ∧ w'.apps = w.apps ∧
        Forwards swap replicas calls more failure) (swapForward swap succeeded replicas) w := by
  induction replicas generalizing succeeded w with
  | nil => exact ⟨[], none, by simp, rfl, .done⟩
  | cons replica rest ih =>
    refine (Traces.settle (Q := fun r w' calls ↦ ∃ x, calls = [(forwardCall swap replica, x)] ∧
        w'.apps = w.apps ∧ r = .ok (match x.answer with
          | some response => .ok response
          | none => .error x.error)) (traces_requestRedeploy (hnodes replica (by simp))
        fun x _ w' happs ↦ ⟨x, rfl, happs, rfl⟩)).bind ?_ ?_
    · rintro outcome w' calls ⟨x, rfl, happs, houtcome⟩
      injection houtcome with houtcome
      cases hanswer : x.answer with
      | none =>
        rw [hanswer] at houtcome
        subst houtcome
        exact ⟨[], some (x.error, none), by simp, happs, .rejected hanswer⟩
      | some response =>
        rw [hanswer] at houtcome
        subst houtcome
        dsimp only
        split
        next hstatus => exact ⟨[], _, by rw [append_nil], happs, .refused hanswer hstatus⟩
        next hstatus =>
          have haccepted : response.status < 300 := Nat.lt_of_not_le hstatus
          split
          next hstrategy => exact ⟨[], _, by simp, happs, .unreadable hanswer haccepted hstrategy⟩
          next swapStrategy hstrategy =>
            refine (ih (fun r hr ↦ hnodes r (mem_cons_of_mem _ hr))).imp ?_
            rintro r w'' calls ⟨more, failure, rfl, happs', hforwards⟩
            exact ⟨_, failure, by simp, happs'.trans happs,
              .swapped hanswer haccepted hstrategy hforwards⟩
    · rintro e w' calls ⟨x, -, -, h⟩
      cases h

theorem revertReplica_traces {entry : Swapped}
    (hnode : (nodeOf swap.nodes entry.replica.nodeId).isSome) :
    Traces (cluster law) (fun r w' calls ↦ ∃ x, calls = [(revertCall swap entry.replica, x)] ∧
      w'.apps = w.apps ∧ r = .ok (confirmed x)) (revertReplica swap entry) w := by
  refine (Traces.settle (Q := fun r w' calls ↦ ∃ x, calls = [(revertCall swap entry.replica, x)] ∧
      w'.apps = w.apps ∧ r = .ok (match x.answer with
        | some response => .ok response
        | none => .error x.error)) (traces_requestRedeploy hnode
      fun x _ w' happs ↦ ⟨x, rfl, happs, rfl⟩)).bind ?_ ?_
  · rintro outcome w' calls ⟨x, rfl, happs, houtcome⟩
    injection houtcome with houtcome
    cases hanswer : x.answer with
    | none | some response =>
      rw [hanswer] at houtcome
      subst houtcome
      exact ⟨x, rfl, happs, by simp [confirmed, hanswer]⟩
  · rintro e w' calls ⟨x, -, -, h⟩
    cases h

theorem mapEach_revert_traces (hnodes : ∀ entry ∈ succeeded,
      (nodeOf swap.nodes entry.replica.nodeId).isSome) :
    Traces (cluster law) (fun r w' calls ↦ Reverts swap succeeded calls ∧ w'.apps = w.apps ∧
      r = .ok (calls.map fun event ↦ confirmed event.2))
      (Program.mapEach (revertReplica swap) succeeded) w := by
  induction succeeded generalizing w with
  | nil => exact ⟨rfl, rfl, rfl⟩
  | cons entry rest ih =>
    refine (revertReplica_traces (hnodes entry (by simp))).bind ?_ ?_
    · rintro reverted w' calls ⟨x, rfl, happs, hreverted⟩
      injection hreverted with hreverted
      refine (ih fun e he ↦ hnodes e (mem_cons_of_mem _ he)).bind ?_ ?_
      · rintro others w'' calls' ⟨hcalls, happs', hothers⟩
        injection hothers with hothers
        refine ⟨?_, happs'.trans happs, ?_⟩
        · rw [Reverts] at hcalls
          simp [Reverts, hcalls]
        · simp [hreverted, hothers]
      · rintro e w'' calls' ⟨-, -, h⟩
        cases h
    · rintro e w' calls ⟨x, -, -, h⟩
      cases h

/-- The error of a failed upgrade, when all or not all of the replicas confirmed their return. -/
def upgradeError (failure : UpgradeFailure) (reverted : List Bool) : JsError :=
  { failure.error with
    code := some (.text (if failure.persistenceFailed then "MCP_V3_UPGRADE_PERSISTENCE_FAILED"
      else "MCP_V3_UPGRADE_SWAP_FAILED"))
    rolledBack := some (reverted.all id &&
      (failure.persistenceFailed || failure.recovered == some true)) }

theorem revertSwap_traces {failure : UpgradeFailure} (hnodes : ∀ entry ∈ succeeded,
      (nodeOf swap.nodes entry.replica.nodeId).isSome) :
    Traces (cluster law) (fun r w' calls ↦ Reverts swap succeeded calls ∧ w'.apps = w.apps ∧
      r = .error (upgradeError failure (calls.map fun event ↦ confirmed event.2)))
      (revertSwap swap succeeded failure) w := by
  refine (mapEach_revert_traces hnodes).bind ?_ ?_
  · rintro reverted w' calls ⟨hcalls, happs, hreverted⟩
    injection hreverted with hreverted
    exact ⟨by simpa using hcalls, happs, by simp [upgradeError, hreverted]⟩
  · rintro e w' calls ⟨-, -, h⟩
    cases h

theorem byId_of_persistFilter {app : MasterApp} (h : persistFilter swap app) :
    app.appId = swap.app.appId ∧ AppLifecycle.byId swap.workspaceId swap.app.appId app := by
  rw [persistFilter, Bool.and_eq_true] at h
  exact ⟨(byId_iff.mp h.1).1, h.1⟩

section Persist

variable (hcurrent : Current swap w) {swapStrategy : SwapStrategy} {time : Time} {x : Choice}
include hcurrent

theorem find?_persistFilter : w.apps.docs.find? (persistFilter swap) = some swap.app :=
  World.find?_apps hcurrent.record (fun _ hd ↦ (byId_of_persistFilter hd).1) hcurrent.takes

/-- The write takes effect unless it is refused, and is answered unless it fails. -/
theorem respond_persistCall (swapStrategy : SwapStrategy) (time : Time) (x : Choice) :
    ∃ c' : Collection MasterApp appKeys,
    c'.docs = updateFirst (persistFilter swap) (persistedAs swap swapStrategy time) w.apps.docs ∧
      (respond (persistCall swap swapStrategy time) x w).2 =
        { w with apps := if x.fault = .refused then w.apps else c' } ∧
      if x.fault = .none then
        ∃ result, (respond (persistCall swap swapStrategy time) x w).1 = .ok result ∧
          result.matchedCount = 1
      else (respond (persistCall swap swapStrategy time) x w).1 = .error x.error := by
  have hkeys : ∀ d, persistFilter swap d →
      appKeys (persistedAs swap swapStrategy time d) = appKeys d := fun _ _ ↦ rfl
  obtain ⟨c', hdocs, hserve⟩ := serveStore_updateOne (x := x) (c := w.apps) hkeys
  refine ⟨c', hdocs, by simp only [respond, persistCall, hserve], ?_⟩
  simp only [respond, persistCall, hserve, find?_persistFilter hcurrent]
  split
  · exact ⟨_, rfl, rfl⟩
  · rfl

theorem written_of_updateFirst {c' : Collection MasterApp appKeys} (hclock : Clocked law time)
    (hdocs : c'.docs =
      updateFirst (persistFilter swap) (persistedAs swap swapStrategy time) w.apps.docs) :
    Written law swap w { w with apps := c' } (persistedAs swap swapStrategy time swap.app) := by
  have hlookup (appId : String) :
      World.app { w with apps := c' } appId =
        (w.app appId).map fun d ↦
          if persistFilter swap d then persistedAs swap swapStrategy time d else d :=
    Collection.lookup_of_updateFirst hdocs (fun d hd ↦ (byId_of_persistFilter hd).1) fun _ ↦ rfl
  refine ⟨?_, ⟨swapStrategy, time, hclock, rfl⟩, fun appId hne ↦ ?_⟩
  · rw [hlookup, hcurrent.record, map_some, if_pos hcurrent.takes]
  · rw [hlookup]
    cases happ : w.app appId with
    | none => rfl
    | some d =>
      have hmiss : persistFilter swap d = false := by
        by_contra hmatch
        have hid := (byId_of_persistFilter (Bool.not_eq_false _ ▸ hmatch)).1
        exact hne ((World.app_eq_some.mp happ).2.symm.trans hid)
      rw [map_some, hmiss, if_neg Bool.false_ne_true]

end Persist

theorem Current.of_apps (h : Current swap w) (happs : w'.apps = w.apps) : Current swap w' := by
  refine ⟨?_, h.takes⟩
  rw [World.app, happs]
  exact h.record

theorem Written.of_apps {app : MasterApp} (h : Written law swap w₁ w' app)
    (happs : w₁.apps = w.apps) : Written law swap w w' app := by
  refine ⟨h.record, h.strategy, fun appId hne ↦ (h.others appId hne).trans ?_⟩
  rw [World.app, World.app, happs]

theorem Written.then_apps {w'' : World} {app : MasterApp} (h : Written law swap w w' app)
    (happs : w''.apps = w'.apps) : Written law swap w w'' app := by
  have happ (appId : String) : w''.app appId = w'.app appId := by
    rw [World.app, World.app, happs]
  exact ⟨(happ _).trans h.record, h.strategy, fun appId hne ↦ (happ _).trans (h.others appId hne)⟩

/-- What is read back after the write is the record as it was written. -/
theorem find?_reread {app : MasterApp} (hcurrent : Current swap w)
    (hwritten : Written law swap w w' app) :
    w'.apps.docs.find? (AppLifecycle.byId swap.workspaceId swap.app.appId) = some app := by
  have hby : AppLifecycle.byId swap.workspaceId swap.app.appId app := by
    obtain ⟨swapStrategy, time, -, rfl⟩ := hwritten.strategy
    exact (byId_of_persistFilter hcurrent.takes).2
  exact World.find?_apps hwritten.record (fun d hd ↦ (byId_iff.mp hd).1) hby

theorem persistUpgrade_traces (hcurrent : Current swap w) {swapStrategy : SwapStrategy} :
    Traces (cluster law) (Persists law swap swapStrategy w) (persistUpgrade swap swapStrategy) w := by
  refine traces_now fun time x w₁ hclock happs ↦ ?_
  refine Traces.bind (R := fun (r : Except JsError UpdateResult) w' calls ↦
    ∃ x', calls = [(persistCall swap swapStrategy time, x')] ∧
      (x'.fault = .refused ∧ w'.apps = w.apps ∧ r = .error x'.error ∨
        Written law swap w w' (persistedAs swap swapStrategy time swap.app) ∧
          (x'.fault = .lost ∧ r = .error x'.error ∨
            x'.fault = .none ∧ ∃ result, r = .ok result ∧ result.matchedCount = 1)))
    (traces_awaitCall (persistCall swap swapStrategy time) fun x' _ ↦ ⟨x', rfl, ?_⟩) ?_ ?_
  · obtain ⟨c', hdocs, hworld, hanswer⟩ :=
      respond_persistCall (hcurrent.of_apps happs) swapStrategy time x'
    have hwritten := (written_of_updateFirst (hcurrent.of_apps happs) hclock hdocs).of_apps happs
    cases hfault : x'.fault with
    | refused =>
      rw [hfault] at hworld hanswer
      exact .inl ⟨rfl, by rw [hworld]; exact happs, hanswer⟩
    | lost =>
      rw [hfault] at hworld hanswer
      exact .inr ⟨by rw [hworld]; exact hwritten, .inl ⟨rfl, hanswer⟩⟩
    | none =>
      rw [hfault] at hworld hanswer
      exact .inr ⟨by rw [hworld]; exact hwritten, .inr ⟨rfl, hanswer⟩⟩
  · rintro result w' calls ⟨x', rfl, ⟨-, -, h⟩ | ⟨hwritten, ⟨-, h⟩ | ⟨hfault, _, ⟨⟩, hcount⟩⟩⟩
    · cases h
    · cases h
    · simp only [hcount, ne_eq, not_true_eq_false, if_false]
      refine traces_findOneApp _ (fun x'' hfault' ↦ ?_) fun x'' hfault' ↦
        .unread hfault hfault' hwritten
      have hfilter : (some (persistedAs swap swapStrategy time swap.app)).filter
          (fun app ↦ app.mcpAppliedRevision == some swap.command.revision) =
            some (persistedAs swap swapStrategy time swap.app) := by
        simp [Option.filter, persistedAs, upgradedAs]
      rw [find?_reread hcurrent hwritten]
      rw [hfilter]
      exact .written hfault hfault' hwritten
  · rintro e w' calls ⟨x', rfl, ⟨hfault, happs', he⟩ | ⟨hwritten, ⟨hfault, he⟩ | ⟨-, _, h, -⟩⟩⟩
    · obtain rfl := Except.error.inj he
      exact .refused hfault happs'
    · obtain rfl := Except.error.inj he
      exact .lost hfault hwritten
    · cases h

theorem concludeSwap_traces {forward : Forward} (hcurrent : Current swap w) :
    Traces (cluster law) (fun r w' calls ↦ ∃ conclusion, r = .ok conclusion ∧
      Concludes law swap forward w conclusion w' calls) (concludeSwap swap forward) w := by
  unfold concludeSwap
  split
  next error recovered hfailure => exact ⟨_, rfl, .failed hfailure⟩
  next hsucceeded =>
    split
    next hmixed => exact ⟨_, rfl, .inconsistent hsucceeded hmixed⟩
    next swapStrategy hcommon =>
      refine (Traces.settle (Q := fun r w' calls ↦ ∃ outcome, r = .ok outcome ∧
        Persists law swap swapStrategy w outcome w' calls)
        ((persistUpgrade_traces hcurrent).imp fun r w' calls h ↦ ⟨r, rfl, h⟩)).bind ?_ ?_
      · rintro outcome w' calls ⟨_, ⟨⟩, hpersists⟩
        cases hpersists with
        | refused hfault happs =>
          exact ⟨_, rfl, .unwritten hsucceeded hcommon (.refused hfault happs)⟩
        | lost hfault hwritten =>
          exact ⟨_, rfl, .unwritten hsucceeded hcommon (.lost hfault hwritten)⟩
        | unread hfault hfault' hwritten =>
          exact ⟨_, rfl, .unwritten hsucceeded hcommon (.unread hfault hfault' hwritten)⟩
        | written hfault hfault' hwritten =>
          exact ⟨_, rfl, .upgraded hsucceeded hcommon (.written hfault hfault' hwritten)⟩
      · rintro e w' calls ⟨_, h, -⟩
        cases h

/-- A performed swap: the forward calls, the conclusion, and the way back unless it went through. -/
inductive Performs (law : Law) (swap : Swap) (w : World) :
    Except JsError Upgraded → World → List (Call × Choice) → Prop where
  | upgraded {forward calls : List (Call × Choice)} {succeeded : List Swapped} {upgraded : Upgraded}
      {failure : Option (JsError × Option Bool)} {w₁ w' : World} (apps : w₁.apps = w.apps)
      (forwards : Forwards swap swap.app.replicas forward succeeded failure)
      (concludes : Concludes law swap ⟨succeeded, failure⟩ w₁ (.ok upgraded) w' calls) :
      Performs law swap w (.ok upgraded) w' (forward ++ calls)
  | reverted {forward calls back : List (Call × Choice)} {succeeded : List Swapped}
      {failure : Option (JsError × Option Bool)} {reason : UpgradeFailure} {w₁ w₂ w' : World}
      (apps : w₁.apps = w.apps)
      (forwards : Forwards swap swap.app.replicas forward succeeded failure)
      (concludes : Concludes law swap ⟨succeeded, failure⟩ w₁ (.error reason) w₂ calls)
      (reverts : Reverts swap succeeded back) (apps' : w'.apps = w₂.apps) :
      Performs law swap w (.error (upgradeError reason (back.map fun event ↦ confirmed event.2))) w'
        (forward ++ calls ++ back)

theorem Forwards.replicas {replicas : List AppReplica} {failure : Option (JsError × Option Bool)}
    (h : Forwards swap replicas calls succeeded failure) :
    ∀ entry ∈ succeeded, entry.replica ∈ replicas := by
  induction h with
  | done | rejected | refused | unreadable => exact fun _ h ↦ nomatch h
  | swapped _ _ _ _ ih =>
    intro entry hentry
    obtain rfl | hentry := mem_cons.mp hentry
    · exact mem_cons_self
    · exact mem_cons_of_mem _ (ih entry hentry)

theorem performSwap_traces (hcurrent : Current swap w)
    (hnodes : ∀ replica ∈ swap.app.replicas,
      (nodeOf swap.nodes replica.nodeId).isSome) :
    Traces (cluster law) (Performs law swap w) (performSwap swap) w := by
  refine (swapForward_traces hnodes).bind ?_ ?_
  · rintro _ w₁ forward ⟨succeeded, failure, ⟨⟩, happs, hforwards⟩
    refine (concludeSwap_traces (hcurrent.of_apps happs)).bind ?_ ?_
    · rintro conclusion w₂ calls ⟨_, ⟨⟩, hconcludes⟩
      cases conclusion with
      | ok upgraded =>
        refine Traces.pure ?_
        rw [append_nil]
        exact .upgraded happs hforwards hconcludes
      | error reason =>
        have hentries : ∀ entry ∈ succeeded,
            (nodeOf swap.nodes entry.replica.nodeId).isSome :=
          fun entry hentry ↦ hnodes _ (hforwards.replicas entry hentry)
        refine (revertSwap_traces hentries).imp ?_
        rintro r w' back ⟨hreverts, happs', rfl⟩
        rw [← append_assoc]
        exact .reverted happs hforwards hconcludes hreverts happs'
    · rintro e w₂ calls ⟨_, h, -⟩
      cases h
  · rintro e w₁ calls ⟨_, _, h, -⟩
    cases h

end

/-! ## A whole upgrade -/

def isInstallation (workspaceId runtimeInstallationId : String) (app : MasterApp) : Bool :=
  app.workspaceId == workspaceId && app.kind == some .mcpV3 &&
    app.mcpRuntimeInstallationId == some runtimeInstallationId && app.state != .removed

/-- The code by which a failure since the first swap is known. -/
def IsSwapCode (code : Option ErrorCode) : Prop :=
  code = some (.text "MCP_V3_UPGRADE_SWAP_FAILED") ∨
    code = some (.text "MCP_V3_UPGRADE_PERSISTENCE_FAILED")

/-- A record that carries a command. -/
structure Carries (command : ClusterUpgradeCommandPayloadV3) (app : MasterApp) : Prop where
  revision : app.mcpAppliedRevision = some command.revision
  manifestDigest : app.manifestDigest = some command.targetManifestDigest
  imageDigest : app.imageDigest = command.targetImageDigest

/-- All checks in front of the swap pass for this record. -/
structure Ready (deps : DeploymentDeps) (workspaceId : String)
    (command : ClusterUpgradeCommandPayloadV3) (w : World) (app : MasterApp) : Prop where
  found : w.apps.docs.find? (isInstallation workspaceId command.runtimeInstallationId) = some app
  running : app.state = .running
  affinity : upgradeAffinity app command = true
  newer : app.mcpAppliedRevision.getD 0 < command.revision
  previousManifest : app.manifestDigest = some command.previousManifestDigest
  previousImage : app.imageDigest = command.previousImageDigest
  complete : app.mcpApprovalReceiptHash.getD "" ≠ "" ∧ app.mcpDeploymentGrantHash.getD "" ≠ ""
  placed : ∀ replica ∈ app.replicas, ∃ node ∈ w.nodes.docs,
    node.nodeId = replica.nodeId ∧ node.status = .active
  readable : ∃ envVars, operatorEnvOf deps.crypto app = .ok envVars

/-- The record and the command with which a swap is performed. -/
structure Selects (deps : DeploymentDeps) (workspaceId : String)
    (command : ClusterUpgradeCommandPayloadV3) (w : World) (swap : Swap) : Prop where
  workspace : swap.workspaceId = workspaceId
  obeys : swap.command = command
  ready : Ready deps workspaceId command w swap.app

/-- The call is answered with an error. -/
def Unanswered : Call × Choice → Prop
  | (.request _, x) => x.answer = none
  | (.service s, x) => s.Fallible = true ∧ x.fault ≠ .none
  | (.acquire _, _) | (.release _, _) => False
  | (_, x) => x.fault ≠ .none

/-- An upgrade that ended before its swap, or performed one. -/
inductive Upgrades (law : Law) (deps : DeploymentDeps) (workspaceId : String)
    (command : ClusterUpgradeCommandPayloadV3) (w : World) :
    Except JsError Upgraded → World → List (Call × Choice) → Prop where
  | unswapped {r : Except JsError Upgraded} {w' : World} {calls : List (Call × Choice)}
      (apps : w'.apps = w.apps) (plain : ∀ event ∈ calls, event.1.IsPlain)
      (unready : (∃ event ∈ calls, Unanswered event) ∨
        ∀ app, ¬ Ready deps workspaceId command w app)
      (refused : ∀ e, r = .error e → IsSwapCode e.code → ∃ event ∈ calls, event.2.error = e)
      (repeated : ∀ upgraded, r = .ok upgraded → Carries command upgraded.app ∧
        w.apps.docs.find? (isInstallation workspaceId command.runtimeInstallationId) =
          some upgraded.app) :
      Upgrades law deps workspaceId command w r w' calls
  | swapped {swap : Swap} {r : Except JsError Upgraded} {w₁ w₂ w' : World}
      {before calls after : List (Call × Choice)}
      (selects : Selects deps workspaceId command w swap) (apps : w₁.apps = w.apps)
      (plain : ∀ event ∈ before, event.1.IsPlain)
      (answered : ∀ event ∈ before, ¬ Unanswered event)
      (performs : Performs law swap w₁ r w₂ calls) (apps' : w'.apps = w₂.apps)
      (unlocks : ∀ event ∈ after, event.1 = .release workspaceId) :
      Upgrades law deps workspaceId command w r w' (before ++ calls ++ after)

section

variable {law : Law} {deps : DeploymentDeps} {workspaceId : String}
  {command : ClusterUpgradeCommandPayloadV3} {w : World}

variable {app : MasterApp}

theorem Ready.unique {app' : MasterApp} (h : Ready deps workspaceId command w app)
    (hfound : w.apps.docs.find? (isInstallation workspaceId command.runtimeInstallationId) =
      some app') : app' = app :=
  some.inj (hfound.symm.trans h.found)

theorem ready_congr (h : Quiet w w') :
    Ready deps workspaceId command w' app ↔ Ready deps workspaceId command w app := by
  refine ⟨fun hready ↦ { hready with found := ?_, placed := ?_ },
    fun hready ↦ { hready with found := ?_, placed := ?_ }⟩
  · exact h.apps ▸ hready.found
  · exact h.nodes ▸ hready.placed
  · exact h.apps.symm ▸ hready.found
  · exact h.nodes.symm ▸ hready.placed

/-- A plain call fails with the error the environment chose. -/
theorem error_of_isPlain (hc : c.IsPlain) {x : Choice} (h : (respond c x w).1 = .error e) :
    Unanswered (c, x) ∧ x.error = e := by
  have hread {α : Type} [DecidableEq α] {keys : α → List DocumentStore.IndexKey} {op : Operation α}
      (hop : op.IsRead) {c : Collection α keys} (h : (serveStore op x c).1 = .error e) :
      x.fault ≠ .none ∧ x.error = e := by
    cases op with
    | findOne filter =>
      rw [serveStore_findOne] at h
      split at h
      · cases h
      next hfault => exact ⟨hfault, Except.error.inj h⟩
    | find filter =>
      rw [serveStore_find] at h
      split at h
      · cases h
      next hfault => exact ⟨hfault, Except.error.inj h⟩
    | _ => exact hop.elim
  cases c with
  | apps op | nodes op | workspaces op | runtimeResourceInventories op | lifecycleEvents op =>
    exact hread hc h
  | request => exact hc.elim
  | service s =>
    simp only [respond] at h
    split at h
    next hfault => exact ⟨hfault, Except.error.inj h⟩
    · cases h
  | acquire | release => cases h

theorem answered_of_isPlain (hc : c.IsPlain) {x : Choice} (h : (respond c x w).1 = .ok a) :
    ¬ Unanswered (c, x) := by
  have hread {α : Type} [DecidableEq α] {keys : α → List DocumentStore.IndexKey} {op : Operation α}
      (hop : op.IsRead) {c : Collection α keys} {a : op.Answer} (h : (serveStore op x c).1 = .ok a) :
      ¬ x.fault ≠ .none := by
    cases op with
    | findOne filter =>
      rw [serveStore_findOne] at h
      split at h
      next hfault => exact not_not_intro hfault
      · cases h
    | find filter =>
      rw [serveStore_find] at h
      split at h
      next hfault => exact not_not_intro hfault
      · cases h
    | _ => exact hop.elim
  cases c with
  | apps op | nodes op | workspaces op | runtimeResourceInventories op | lifecycleEvents op =>
    exact hread hc h
  | request => exact hc.elim
  | service s =>
    simp only [respond] at h
    split at h
    · cases h
    next hfault => exact hfault
  | acquire | release => exact id

/-- A plain call that goes well, before an upgrade. -/
theorem Upgrades.after {w₀ : World} {x : Choice}
    (h : Upgrades law deps workspaceId command w₀ r w' calls) (hquiet : Quiet w w₀) (hc : c.IsPlain)
    (hanswer : (respond c x w).1 = .ok a) :
    Upgrades law deps workspaceId command w r w' ([(c, x)] ++ calls) := by
  cases h with
  | unswapped apps plain unready refused repeated =>
    refine .unswapped (apps.trans hquiet.apps) ?_ ?_ (fun e he hcode ↦ ?_) (hquiet.apps ▸ repeated)
    · simpa [hc] using plain
    · obtain ⟨event, hevent, hfailed⟩ | hunready := unready
      · exact .inl ⟨event, mem_append_right _ hevent, hfailed⟩
      · exact .inr fun app hready ↦ hunready app ((ready_congr hquiet).mpr hready)
    · obtain ⟨event, hevent, he⟩ := refused e he hcode
      exact ⟨event, mem_append_right _ hevent, he⟩
  | @swapped swap _ _ _ _ before calls after selects apps plain answered performs apps' unlocks =>
    have hcalls : [(c, x)] ++ (before ++ calls ++ after) = ((c, x) :: before) ++ calls ++ after := by
      simp
    rw [hcalls]
    have hselects := { selects with ready := (ready_congr hquiet).mp selects.ready }
    refine .swapped hselects (apps.trans hquiet.apps) ?_ (fun event hevent ↦ ?_) performs apps' unlocks
    · simpa [hc] using plain
    · obtain rfl | hevent := mem_cons.mp hevent
      · exact answered_of_isPlain hc hanswer
      · exact answered event hevent

theorem traces_plainCall (hc : c.IsPlain) {f : c.Answer → Async Upgraded}
    (h : ∀ a w', Quiet w w' → (∃ x, (respond c x w).1 = .ok a) →
      Traces (cluster law) (Upgrades law deps workspaceId command w') (f a) w') :
    Traces (cluster law) (Upgrades law deps workspaceId command w) (awaitCall c >>= f) w := by
  refine Traces.bind (R := fun (r : Except JsError c.Answer) w' calls ↦
    ∃ x, calls = [(c, x)] ∧ Quiet w w' ∧ (respond c x w).1 = r)
    (traces_awaitCall c fun x _ ↦ ⟨x, rfl, respond_quiet hc.isQuiet x w, rfl⟩) ?_ ?_
  · rintro a w' calls ⟨x, rfl, hquiet, hanswer⟩
    exact (h a w' hquiet ⟨x, hanswer⟩).imp fun r w'' calls hr ↦ hr.after hquiet hc hanswer
  · rintro e w' calls ⟨x, rfl, hquiet, hanswer⟩
    obtain ⟨hfailed, herror⟩ := error_of_isPlain hc hanswer
    refine .unswapped hquiet.apps (by simpa using hc) (.inl ⟨_, mem_singleton_self _, hfailed⟩)
      (fun e' he' _ ↦ ?_) fun _ h ↦ nomatch h
    obtain rfl := Except.error.inj he'
    exact ⟨_, mem_singleton_self _, herror⟩

/-- A refusal with another code. -/
theorem Upgrades.refuse (hcode : ¬ IsSwapCode e.code)
    (hunready : ∀ app, ¬ Ready deps workspaceId command w app) :
    Upgrades law deps workspaceId command w (.error e) w [] := by
  refine .unswapped rfl (fun _ h ↦ nomatch h) (.inr hunready) (fun e' he' hcode' ↦ ?_)
    fun _ h ↦ nomatch h
  obtain rfl := Except.error.inj he'
  exact absurd hcode' hcode

/-- A check before the swap. -/
theorem traces_guard {c : Prop} [Decidable c] {p : Async Upgraded} (hcode : ¬ IsSwapCode e.code)
    (hunready : c → ∀ app, ¬ Ready deps workspaceId command w app)
    (h : ¬ c → Traces (cluster law) (Upgrades law deps workspaceId command w) p w) :
    Traces (cluster law) (Upgrades law deps workspaceId command w)
      (Program.throwIf c e >>= fun _ ↦ p) w :=
  Traces.guard (fun hc ↦ .refuse hcode (hunready hc)) h

theorem not_isSwapCode_none : ¬ IsSwapCode none := by
  rintro (h | h) <;> cases h

theorem not_isSwapCode_protocolError {code : String} {detail : Option String}
    (hswap : code ≠ "MCP_V3_UPGRADE_SWAP_FAILED")
    (hpersistence : code ≠ "MCP_V3_UPGRADE_PERSISTENCE_FAILED") :
    ¬ IsSwapCode (protocolError code detail).code := by
  rintro (h | h)
  · exact hswap (ErrorCode.text.inj (some.inj h))
  · exact hpersistence (ErrorCode.text.inj (some.inj h))

theorem traces_resolvePrimaryUrl {f : Option String → Async Upgraded} (h : ∀ url w', Quiet w w' →
      Traces (cluster law) (Upgrades law deps workspaceId command w') (f url) w') :
    Traces (cluster law) (Upgrades law deps workspaceId command w)
      (resolvePrimaryUrl deps app >>= f) w := by
  unfold resolvePrimaryUrl
  split
  · rw [Program.bind_assoc]
    exact traces_plainCall (c := .service (.primaryOf _ _)) trivial fun a w' hquiet _ ↦ h _ w' hquiet
  · exact h _ w (Quiet.refl w)

theorem current_of_ready {swap : Swap} (h : Selects deps workspaceId command w swap) :
    Current swap w := by
  have hmem := mem_of_find?_eq_some h.ready.found
  have hfilter := find?_some h.ready.found
  simp only [isInstallation, Bool.and_eq_true, beq_iff_eq] at hfilter
  refine ⟨World.app_eq_some.mpr ⟨hmem, rfl⟩, ?_⟩
  have hnewer := h.ready.newer
  have happlied : swap.app.mcpAppliedRevision.all (· < swap.command.revision) := by
    rw [h.obeys]
    cases hr : swap.app.mcpAppliedRevision with
    | none => rfl
    | some applied => simpa [hr] using hnewer
  simp [persistFilter, AppLifecycle.byId, happlied, h.workspace, hfilter.1.1.1]

/-- Every replica has an active node exactly when the loaded nodes cover the replicas. -/
theorem placed_iff :
    (∀ replica ∈ app.replicas, ∃ node ∈ w.nodes.docs,
        node.nodeId = replica.nodeId ∧ node.status = .active) ↔
      ¬ app.replicas.any (fun replica ↦ !(w.nodes.docs.filter fun node ↦
        (app.replicas.map (·.nodeId)).contains node.nodeId && node.status == .active).any
          (·.nodeId == replica.nodeId)) := by
  simp only [List.any_eq_true, Bool.not_eq_true', List.any_eq_false, mem_filter,
    Bool.and_eq_true, contains_eq_mem, decide_eq_true_eq, List.mem_map, beq_iff_eq, not_exists,
    not_and, not_forall, Classical.not_not]
  constructor
  · intro h replica hreplica
    obtain ⟨node, hnode, hid, hactive⟩ := h replica hreplica
    exact ⟨node, ⟨hnode, ⟨replica, hreplica, hid.symm⟩, hactive⟩, hid⟩
  · intro h replica hreplica
    obtain ⟨node, ⟨hnode, -, hactive⟩, hid⟩ := h replica hreplica
    exact ⟨node, hnode, hid, hactive⟩

theorem applyUpgrade_traces
    (hfound : w.apps.docs.find? (isInstallation workspaceId command.runtimeInstallationId) =
      some app) (hrunning : app.state = .running) (haffinity : upgradeAffinity app command)
    (hnewer : app.mcpAppliedRevision.getD 0 < command.revision) :
    Traces (cluster law) (Upgrades law deps workspaceId command w)
      (applyUpgrade deps workspaceId command app) w := by
  refine traces_guard (not_isSwapCode_protocolError (by decide) (by decide)) ?_ fun hprevious ↦ ?_
  · rintro hprevious app' hready
    obtain rfl := hready.unique hfound
    exact hprevious.elim (· hready.previousManifest) (· hready.previousImage)
  refine traces_guard not_isSwapCode_none ?_ fun hcomplete ↦ ?_
  · rintro hmissing app' hready
    obtain rfl := hready.unique hfound
    exact hmissing.elim hready.complete.1 hready.complete.2
  unfold loadReplicaNodes loadActiveNodes
  rw [Program.bind_assoc]
  refine traces_plainCall (c := .nodes (.find _)) trivial fun nodes w₁ hquiet₁ ⟨x, hanswer⟩ ↦ ?_
  have hfound₁ := hquiet₁.apps.symm ▸ hfound
  have hnodes : nodes = w₁.nodes.docs.filter fun node ↦
      (app.replicas.map (·.nodeId)).contains node.nodeId && node.status == .active := by
    simp only [respond, serveStore_find] at hanswer
    split at hanswer
    · rw [hquiet₁.nodes]
      exact (Except.ok.inj hanswer).symm
    · cases hanswer
  rw [Program.bind_assoc]
  refine traces_guard not_isSwapCode_none ?_ fun hplaced ↦ ?_
  · rintro hmissing app' hready
    obtain rfl := hready.unique hfound₁
    exact placed_iff.mp hready.placed (hnodes ▸ hmissing)
  refine Traces.ofExcept_bind (fun e he ↦ ?_) fun envVars henv ↦ ?_
  · have hunready : ∀ app', ¬ Ready deps workspaceId command w₁ app' := by
      intro app' hready
      obtain rfl := hready.unique hfound₁
      obtain ⟨envVars, henv⟩ := hready.readable
      rw [henv] at he
      cases he
    refine .refuse ?_ hunready
    unfold operatorEnvOf at he
    split at he
    · cases he
    · split at he
      · cases he
        exact not_isSwapCode_none
      · cases he
  have hready : Ready deps workspaceId command w₁ app :=
    ⟨hfound₁, hrunning, haffinity, hnewer, Classical.not_not.mp fun h ↦ hprevious (.inl h),
      Classical.not_not.mp fun h ↦ hprevious (.inr h), not_or.mp hcomplete,
      placed_iff.mpr (hnodes ▸ hplaced), envVars, henv⟩
  unfold platformEnvVarsV3
  rw [Program.bind_assoc]
  refine traces_resolvePrimaryUrl fun url w₂ hquiet₂ ↦ ?_
  have hselects : ∀ swap : Swap, swap.app = app → swap.workspaceId = workspaceId →
      swap.command = command → Selects deps workspaceId command w₂ swap := by
    intro swap happ hworkspace hcommand
    subst happ
    exact ⟨hworkspace, hcommand, (ready_congr hquiet₂).mpr hready⟩
  refine (performSwap_traces (current_of_ready (hselects _ rfl rfl rfl)) ?_).imp ?_
  · intro replica hreplica
    have hany := hplaced
    simp only [List.any_eq_true, Bool.not_eq_true', not_exists, not_and,
      Bool.not_eq_false] at hany
    exact find?_isSome.mpr (by simpa using hany replica hreplica)
  · intro r w₃ calls hperforms
    have hcalls : calls = [] ++ calls ++ [] := by simp
    rw [hcalls]
    exact .swapped (hselects _ rfl rfl rfl) rfl (fun _ h ↦ by cases h) (fun _ h ↦ by cases h)
      hperforms rfl fun _ h ↦ by cases h

theorem carries_of_repeated {upgraded : Upgraded}
    (h : repeatedRevision app command = .ok upgraded)
    (hrevision : command.revision = app.mcpAppliedRevision.getD 0) :
    upgraded.app = app ∧ Carries command app := by
  unfold repeatedRevision at h
  split at h
  next happlied =>
    obtain ⟨hpositive, hmanifest, himage, -⟩ := happlied
    refine ⟨by rw [← Except.ok.inj h], ?_, hmanifest, himage⟩
    cases hr : app.mcpAppliedRevision with
    | none => simp [hr] at hpositive
    | some applied => rw [hrevision, hr, getD_some]
  next => cases h

/-- The lock is given back after whatever the upgrade did. -/
theorem Upgrades.release {x : Choice} (h : Upgrades law deps workspaceId command w r w₁ calls)
    (happs : w'.apps = w₁.apps) :
    Upgrades law deps workspaceId command w r w' (calls ++ [(.release workspaceId, x)]) := by
  cases h with
  | unswapped apps plain unready refused repeated =>
    refine .unswapped (happs.trans apps) (fun event hevent ↦ ?_) ?_ (fun e he hcode ↦ ?_) repeated
    · obtain hevent | hevent := mem_append.mp hevent
      · exact plain event hevent
      · obtain rfl := mem_singleton.mp hevent
        exact trivial
    · exact unready.imp_left fun ⟨event, hevent, hfailed⟩ ↦
        ⟨event, mem_append_left _ hevent, hfailed⟩
    · obtain ⟨event, hevent, he⟩ := refused e he hcode
      exact ⟨event, mem_append_left _ hevent, he⟩
  | swapped selects apps plain answered performs apps' unlocks =>
    rw [append_assoc]
    refine .swapped selects apps plain answered performs (happs.trans apps') fun event hevent ↦ ?_
    obtain hevent | hevent := mem_append.mp hevent
    · exact unlocks event hevent
    · obtain rfl := mem_singleton.mp hevent
      rfl

theorem upgradeMcpV3_traces :
    Traces (cluster law) (Upgrades law deps workspaceId command w)
      (upgradeMcpV3 deps workspaceId command) w := by
  refine traces_plainCall (c := .acquire workspaceId) trivial fun _ w₀ hquiet₀ _ ↦ ?_
  refine Traces.finallyDo (Traces.imp (Q := Upgrades law deps workspaceId command w₀) ?_ ?_)
  · refine traces_plainCall (c := .apps (.findOne (isInstallation workspaceId
      command.runtimeInstallationId))) trivial fun found w₁ hquiet₁ ⟨x, hanswer⟩ ↦ ?_
    simp only [respond, serveStore_findOne] at hanswer
    split at hanswer
    next =>
      have hfound := Except.ok.inj hanswer
      rw [← hquiet₁.apps] at hfound
      cases found with
      | none =>
        refine Traces.throw (.refuse (not_isSwapCode_protocolError (by decide) (by decide)) ?_)
        intro app hready
        rw [hready.found] at hfound
        cases hfound
      | some app =>
        refine traces_guard (not_isSwapCode_protocolError (by decide) (by decide)) ?_ fun hrunning ↦ ?_
        · intro hstate app' hready
          obtain rfl := hready.unique hfound
          exact hstate hready.running
        refine traces_guard (not_isSwapCode_protocolError (by decide) (by decide)) ?_
          fun haffinity ↦ ?_
        · intro hmismatch app' hready
          obtain rfl := hready.unique hfound
          rw [hready.affinity] at hmismatch
          cases hmismatch
        refine traces_guard (not_isSwapCode_protocolError (by decide) (by decide)) ?_
          fun hrevision ↦ ?_
        · intro hdowngrade app' hready
          obtain rfl := hready.unique hfound
          exact Nat.lt_asymm hdowngrade hready.newer
        split
        next hequal =>
          have hunready : ∀ app', ¬ Ready deps workspaceId command w₁ app' := by
            intro app' hready
            obtain rfl := hready.unique hfound
            exact Nat.ne_of_lt hready.newer hequal.symm
          refine Traces.ofExcept (.unswapped rfl (fun _ h ↦ by cases h) (.inr hunready)
            (fun e he hcode ↦ ?_) ?_)
          · unfold repeatedRevision at he
            split at he
            · cases he
            · cases he
              exact absurd hcode (not_isSwapCode_protocolError (by decide) (by decide))
          · intro upgraded hupgraded
            obtain ⟨happ, hcarries⟩ := carries_of_repeated hupgraded hequal
            rw [happ]
            exact ⟨hcarries, hfound⟩
        next hne =>
          exact applyUpgrade_traces hfound (Classical.not_not.mp hrunning) (by simpa using haffinity)
            (by omega)
    next => cases hanswer
  · intro r w₁ calls hr
    exact traces_awaitCall (.release workspaceId) fun x _ ↦ hr.release rfl

end

end RuntimeSwap

end PrivosCluster
