import PrivosCluster.Master.Compensation
import PrivosCluster.Master.ReconfigureSpec

/-!
# What a failed reconfiguration leaves on the replicas

The replicas are reconfigured one after the other. When an agent refuses, the replicas that went
before it are sent the resources they had, with the environment of the command. When a request is
rejected, or when the command leaves the resources alone, nothing is sent back.
-/

namespace PrivosCluster

open AsyncProgram DocumentStore DeploymentV3 List AppLifecycle Deployment Option

/-- What a replica runs with. -/
structure RuntimeConfig where
  env : List (String × String)
  resources : ContainerResources
deriving DecidableEq

/-- What the containers of the fleet run with, by node and container id. -/
abbrev FleetConfig := String → String → Option RuntimeConfig

variable {replicas : List AppReplica} {x : Choice}
  {r : Except JsError (List (AppReplica × AgentBody))} {first last back : List (Call × Choice)}
  {failed : AppReplica}

namespace RuntimeSwap

/-- A confirmed call replaces environment and resources; any other leaves the container alone. -/
def reconfigure (fleet : FleetConfig) (event : Call × Choice) : FleetConfig :=
  match event.1 with
  | .request ⟨nodeId, _, .mcpV3Reconfigure containerId body⟩ =>
    if confirmed event.2 then fun n i ↦
      if n = nodeId ∧ i = containerId then some ⟨body.deploy.envVars, body.deploy.resources⟩
      else fleet n i
    else fleet
  | _ => fleet

def reconfiguredBy (calls : List (Call × Choice)) (fleet : FleetConfig) : FleetConfig :=
  calls.foldl reconfigure fleet

/-- The same variables with the same values, in whatever order. -/
def SameEnv (env env' : List (String × String)) : Prop := ∀ key, env.lookup key = env'.lookup key

/-- Every replica runs with the environment and the resources of the record. -/
def RunsAsRecorded (deps : DeploymentDeps) (app : MasterApp) (fleet : FleetConfig) : Prop :=
  ∃ env, operatorEnvOf deps.crypto app = .ok env ∧ ∀ replica ∈ app.replicas,
    ∃ config, fleet replica.nodeId replica.containerId = some config ∧
      SameEnv config.env env ∧ config.resources = app.resources

/-- The request was rejected, or refused with an error status. -/
def fails : Call × Choice → Bool
  | (.request _, x) => !confirmed x
  | _ => false

/-- After the first failure no request fails: whatever is rolled back succeeds. -/
def RollbacksSucceed (calls : List (Call × Choice)) : Prop :=
  ∀ before event after, calls = before ++ event :: after → fails event = true →
    ∀ later ∈ after, fails later = false

/-- No agent confirmed anything. -/
def Unmoved (calls : List (Call × Choice)) : Prop :=
  ∀ event ∈ calls, ∀ sent, event.1 = .request sent → confirmed event.2 = false

/-- An agent answered with an error status. -/
def Refused (calls : List (Call × Choice)) : Prop :=
  ∃ event ∈ calls, ∃ sent response, event.1 = .request sent ∧
    event.2.answer = some response ∧ 300 ≤ response.status

/-- The command changes nothing that stays behind when an agent fails. -/
structure Unchanging (deps : DeploymentDeps) (command : ClusterReconfigureCommandPayloadV3)
    (app : MasterApp) (calls : List (Call × Choice)) : Prop where
  environment : ∃ env, operatorEnvOf deps.crypto app = .ok env ∧ SameEnv command.envVars env
  resources : command.resources.getD app.resources = app.resources ∨ Refused calls

def reconfigureCall (swap : Reconfiguration) (resources : ContainerResources)
    (replica : AppReplica) : Call :=
  .request ⟨replica.nodeId, swap.workspaceId,
    .mcpV3Reconfigure replica.containerId (reconfigureBody swap replica.nodeId replica resources)⟩

/-- The resources that the fan-out sends. -/
def Reconfiguration.requested (swap : Reconfiguration) : ContainerResources :=
  swap.command.resources.getD swap.app.resources

/-! ## The configuration after some calls -/

section

variable {fleet : FleetConfig} {swap : Reconfiguration} {resources : ContainerResources}
  {calls calls' : List (Call × Choice)} {n i : String}

theorem reconfiguredBy_append :
    reconfiguredBy (calls ++ calls') fleet = reconfiguredBy calls' (reconfiguredBy calls fleet) :=
  foldl_append

/-- Calls that no agent confirmed leave every container alone. -/
theorem reconfiguredBy_of_unmoved (h : Unmoved calls) : reconfiguredBy calls fleet = fleet := by
  induction calls with
  | nil => rfl
  | cons event rest ih =>
    have hevent : reconfigure fleet event = fleet := by
      unfold reconfigure
      split
      next hcall =>
        have hfailed := h event mem_cons_self _ hcall
        rw [if_neg (by rw [hfailed]; decide)]
      next => rfl
    rw [reconfiguredBy, foldl_cons, hevent]
    exact ih fun event' hevent' ↦ h event' (mem_cons_of_mem _ hevent')

theorem unmoved_of_no_request (h : ∀ event ∈ calls, ∀ sent, event.1 ≠ .request sent) :
    Unmoved calls :=
  fun event hevent sent hsent ↦ absurd hsent (h event hevent sent)

/-- Replicas whose agents all confirmed run with the environment of the command. -/
theorem reconfiguredBy_confirmed
    (hcalls : calls.map (·.1) = replicas.map (reconfigureCall swap resources))
    (hconfirmed : ∀ event ∈ calls, confirmed event.2) :
    reconfiguredBy calls fleet n i =
      if replicas.any (isAt n i) then some ⟨swap.command.envVars, resources⟩ else fleet n i := by
  induction replicas generalizing calls fleet with
  | nil =>
    obtain rfl : calls = [] := by simpa using hcalls
    rfl
  | cons replica rest ih =>
    obtain ⟨⟨c, x⟩, calls, rfl⟩ : ∃ event rest, calls = event :: rest := by
      cases calls with
      | nil => simp at hcalls
      | cons event rest => exact ⟨event, rest, rfl⟩
    obtain ⟨rfl, hrest⟩ := List.cons.inj hcalls
    have hx : confirmed x := hconfirmed _ mem_cons_self
    have hfirst : reconfigure fleet (reconfigureCall swap resources replica, x) = fun n i ↦
        if n = replica.nodeId ∧ i = replica.containerId then
          some ⟨swap.command.envVars, resources⟩
        else fleet n i := by
      exact if_pos hx
    rw [reconfiguredBy, foldl_cons, ← reconfiguredBy,
      ih hrest fun event hevent ↦ hconfirmed event (mem_cons_of_mem _ hevent), hfirst]
    by_cases hmore : rest.any (isAt n i)
    · simp [hmore]
    · have hat : isAt n i replica ↔ n = replica.nodeId ∧ i = replica.containerId := by
        rw [isAt_iff, eq_comm, @eq_comm _ i]
      by_cases hhere : n = replica.nodeId ∧ i = replica.containerId
      · rw [any_cons, hat.mpr hhere, if_neg hmore]
        exact if_pos hhere
      · have hnot : ¬ isAt n i replica := fun h ↦ hhere (hat.mp h)
        simp [hmore, hnot, hhere]

end

/-! ## The calls of a reconfiguration -/

/-- The calls of the fan-out up to its end or its first failure. -/
structure Fanned (swap : Reconfiguration) (moved : List AppReplica) (calls : List (Call × Choice)) :
    Prop where
  sent : calls.map (·.1) = moved.map (reconfigureCall swap swap.requested)
  accepted : ∀ event ∈ calls, confirmed event.2 = true

/-- The calls that send the moved replicas back, when the last call got the answer in `x`. -/
structure RollsBack (swap : Reconfiguration) (moved : List AppReplica) (x : Choice)
    (calls : List (Call × Choice)) : Prop where
  requests : ∀ event ∈ calls, ∃ replica, event.1 = reconfigureCall swap swap.app.resources replica
  complete : x.answer.isSome = true → swap.command.resources.isSome = true →
    (∀ event ∈ calls, confirmed event.2 = true) →
      calls.map (·.1) = moved.map (reconfigureCall swap swap.app.resources)
  idle : ¬ (x.answer.isSome = true ∧ swap.command.resources.isSome = true) → calls = []

/-- The fan-out went through all replicas, or stopped at a call that failed. -/
inductive Fans (swap : Reconfiguration) (before replicas : List AppReplica) :
    Except JsError (List (AppReplica × AgentBody)) → List (Call × Choice) → Prop where
  | complete {done : List (AppReplica × AgentBody)} {calls : List (Call × Choice)}
      (fanned : Fanned swap replicas calls) : Fans swap before replicas (.ok done) calls
  | stopped {e : JsError} {moved : List AppReplica} {failed : AppReplica} {x : Choice}
      {calls back : List (Call × Choice)} (fanned : Fanned swap moved calls)
      (mem : moved ⊆ replicas) (failure : confirmed x = false)
      (rollsBack : RollsBack swap (before ++ moved) x back) :
      Fans swap before replicas (.error e)
        (calls ++ (reconfigureCall swap swap.requested failed, x) :: back)

section

variable {law : Law} {swap : Reconfiguration} {w : World}

variable {replica : AppReplica}

theorem traces_requestReconfigure {resources : ContainerResources}
    (hnode : (nodeOf swap.nodes replica.nodeId).isSome) :
    Traces (cluster law) (fun (r : Except JsError AgentResponse) _ calls ↦
      ∃ x, calls = [(reconfigureCall swap resources replica, x)] ∧
        r = match x.answer with
          | some response => .ok response
          | none => .error x.error) (requestReconfigure swap replica resources) w := by
  obtain ⟨node, hnode⟩ := isSome_iff_exists.mp hnode
  rw [requestReconfigure, hnode, requestNode, request, nodeId_of_nodeOf hnode]
  apply traces_awaitCall (.request _)
  intro x _
  exact ⟨x, rfl, rfl⟩

/-- A rollback goes on exactly when the agent confirms it. -/
theorem traces_rollBackResize {failed : String}
    (hnode : (nodeOf swap.nodes replica.nodeId).isSome) :
    Traces (cluster law) (fun r _ calls ↦
      ∃ x, calls = [(reconfigureCall swap swap.app.resources replica, x)] ∧
        ∀ e, r = .error e → confirmed x = false) (rollBackResize swap failed replica) w := by
  have hattempt : Traces (cluster law) (fun r _ calls ↦
      ∃ x, calls = [(reconfigureCall swap swap.app.resources replica, x)] ∧
        ∀ e, r = .error e → confirmed x = false)
      (do
        let response ← requestReconfigure swap replica swap.app.resources
        Program.throwIf (300 ≤ response.status)
          { message := "rollback agent call returned " ++ toString response.status ++ ": " ++
              response.body.json } : Async Unit) w := by
    apply (traces_requestReconfigure hnode).bind
    · rintro response w' calls ⟨x, rfl, hr⟩
      cases hanswer : x.answer with
      | none => simp [hanswer] at hr
      | some answer =>
        rw [hanswer] at hr
        obtain rfl := Except.ok.inj hr
        apply Traces.throwIf
        · simp [confirmed, hanswer]
        · intro _
          exact ⟨x, rfl, fun _ h ↦ by cases h⟩
    · rintro e w' calls ⟨x, rfl, hr⟩
      cases hanswer : x.answer with
      | none => simp [confirmed, hanswer]
      | some answer => simp [hanswer] at hr
  apply (Traces.settle (Q := fun r _ calls ↦ ∃ r', r = .ok r' ∧
    ∃ x, calls = [(reconfigureCall swap swap.app.resources replica, x)] ∧
      ∀ e, r' = .error e → confirmed x = false) (hattempt.imp fun r w' calls h ↦ ⟨r, rfl, h⟩)).bind
  · rintro outcome w' calls ⟨r', hr', x, rfl, hfailed⟩
    obtain rfl := Except.ok.inj hr'
    cases outcome with
    | ok _ => exact ⟨x, rfl, fun _ h ↦ by cases h⟩
    | error e => exact ⟨x, rfl, fun _ _ ↦ hfailed e rfl⟩
  · rintro e w' calls ⟨r', hr', -⟩
    cases hr'

/-- The rollbacks reach every moved replica, when all of them are confirmed. -/
theorem traces_rollBack {failed : String} {moved : List AppReplica}
    (hnodes : ∀ replica ∈ moved, (nodeOf swap.nodes replica.nodeId).isSome) :
    Traces (cluster law) (fun _ _ calls ↦
      (∀ event ∈ calls, ∃ replica, event.1 = reconfigureCall swap swap.app.resources replica) ∧
        ((∀ event ∈ calls, confirmed event.2) →
          calls.map (·.1) = moved.map (reconfigureCall swap swap.app.resources)))
      (Program.forEach (rollBackResize swap failed) moved) w := by
  induction moved generalizing w with
  | nil => exact ⟨fun _ h ↦ (nomatch h), fun _ ↦ rfl⟩
  | cons replica rest ih =>
    apply (traces_rollBackResize (hnodes replica mem_cons_self)).bind
    · rintro _ w' calls ⟨x, rfl, -⟩
      apply (ih fun other hother ↦ hnodes other (mem_cons_of_mem _ hother)).imp
      rintro r w'' calls ⟨hrequests, hcomplete⟩
      constructor
      · intro event hevent
        obtain rfl | hevent := mem_cons.mp hevent
        · exact ⟨replica, rfl⟩
        · exact hrequests event hevent
      · intro hconfirmed
        rw [singleton_append, map_cons, map_cons,
          hcomplete fun event hevent ↦ hconfirmed event (mem_cons_of_mem _ hevent)]
    · rintro e w' calls ⟨x, rfl, hfailed⟩
      refine ⟨fun event hevent ↦ ⟨replica, by rw [mem_singleton.mp hevent]⟩, fun hconfirmed ↦ ?_⟩
      have hx := hconfirmed _ (mem_singleton_self _)
      rw [hfailed e rfl] at hx
      cases hx

theorem Fanned.nil : Fanned swap [] [] := ⟨rfl, fun _ h ↦ nomatch h⟩

theorem Fanned.cons {moved : List AppReplica} {calls : List (Call × Choice)} (hx : confirmed x)
    (h : Fanned swap moved calls) :
    Fanned swap (replica :: moved) ((reconfigureCall swap swap.requested replica, x) :: calls) where
  sent := by rw [map_cons, map_cons, h.sent]
  accepted event hevent := by
    obtain rfl | hevent := mem_cons.mp hevent
    · exact hx
    · exact h.accepted event hevent

/-- One more replica in front of those that a fan-out went through. -/
theorem Fans.cons {before : List AppReplica} {rest : List AppReplica} {calls : List (Call × Choice)}
    (hx : confirmed x) (h : Fans swap (before ++ [replica]) rest r calls) :
    Fans swap before (replica :: rest) r
      ((reconfigureCall swap swap.requested replica, x) :: calls) := by
  cases h with
  | complete fanned => exact .complete (fanned.cons hx)
  | @stopped _ moved _ _ _ _ fanned mem failure rollsBack =>
    rw [append_assoc] at rollsBack
    exact .stopped (fanned.cons hx) (cons_subset_cons replica mem) failure rollsBack

/-- How the fan-out goes on after the replicas that are done. -/
theorem fanOut_traces {done : List (AppReplica × AgentBody)}
    (hreplicas : ∀ replica ∈ replicas, (nodeOf swap.nodes replica.nodeId).isSome)
    (hdone : ∀ replica ∈ done.map (·.1),
      (nodeOf swap.nodes replica.nodeId).isSome) :
    Traces (cluster law) (fun r _ calls ↦ Fans swap (done.map (·.1)) replicas r calls)
      (Program.foldEach (reconfigureReplica swap) done replicas) w := by
  induction replicas generalizing done w with
  | nil => exact .complete .nil
  | cons replica rest ih =>
    have hnode := hreplicas replica mem_cons_self
    have hstep : Traces (cluster law) (fun (r : Except JsError (List (AppReplica × AgentBody))) _ calls ↦
        ∃ x, (∃ body, confirmed x ∧ r = .ok (done ++ [(replica, body)]) ∧
          calls = [(reconfigureCall swap swap.requested replica, x)]) ∨
        ∃ e back, confirmed x = false ∧ r = .error e ∧ RollsBack swap (done.map (·.1)) x back ∧
          calls = (reconfigureCall swap swap.requested replica, x) :: back)
        (reconfigureReplica swap done replica) w := by
      apply (traces_requestReconfigure hnode).bind
      · rintro response w' calls ⟨x, rfl, hr⟩
        cases hanswer : x.answer with
        | none => simp [hanswer] at hr
        | some answer =>
          rw [hanswer] at hr
          obtain rfl := Except.ok.inj hr
          split
          next hstatus =>
            have hfailed : confirmed x = false := by simpa [confirmed, hanswer] using hstatus
            unfold Program.onlyIf
            split
            next hresources =>
              have hsends : Traces (cluster law)
                  (fun _ _ back ↦ RollsBack swap (done.map (·.1)) x back)
                  (Program.forEach (rollBackResize swap response.body.json) (done.map (·.1))) w' := by
                apply (traces_rollBack hdone).imp
                rintro _ _ back ⟨hrequests, hcomplete⟩
                exact ⟨hrequests, fun _ _ ↦ hcomplete, fun h ↦ absurd ⟨by simp [hanswer], hresources⟩ h⟩
              apply hsends.bind
              · intro _ w'' back hback
                refine ⟨x, .inr ⟨_, back, hfailed, rfl, hback, ?_⟩⟩
                rw [append_nil]
                rfl
              · intro e w'' back hback
                exact ⟨x, .inr ⟨e, back, hfailed, rfl, hback, rfl⟩⟩
            next hresources =>
              have hback : RollsBack swap (done.map (·.1)) x [] :=
                ⟨fun _ h ↦ (by cases h), fun _ h ↦ absurd h hresources, fun _ ↦ rfl⟩
              exact ⟨x, .inr ⟨_, [], hfailed, rfl, hback, rfl⟩⟩
          next hstatus =>
            exact ⟨x, .inl ⟨_, by simpa [confirmed, hanswer] using hstatus, rfl, rfl⟩⟩
      · rintro e w' calls ⟨x, rfl, hr⟩
        cases hanswer : x.answer with
        | some answer => simp [hanswer] at hr
        | none =>
          have hback : RollsBack swap (done.map (·.1)) x [] :=
            ⟨fun _ h ↦ (by cases h), fun h ↦ by simp [hanswer] at h, fun _ ↦ rfl⟩
          exact ⟨x, .inr ⟨e, [], by simp [confirmed, hanswer], rfl, hback, rfl⟩⟩
    apply hstep.bind
    · rintro done' w' calls ⟨x, ⟨body, hx, hdone', rfl⟩ | ⟨e, back, -, h, -⟩⟩
      · obtain rfl := Except.ok.inj hdone'
        have hmore : ∀ other ∈ (done ++ [(replica, body)]).map (·.1),
            (nodeOf swap.nodes other.nodeId).isSome := by
          intro other hother
          rw [map_append, mem_append] at hother
          obtain hother | hother := hother
          · exact hdone other hother
          · rw [mem_singleton.mp hother]
            exact hnode
        apply (ih (fun other hother ↦ hreplicas other (mem_cons_of_mem _ hother)) hmore).imp
        intro r w'' calls hfans
        rw [map_append] at hfans
        exact hfans.cons hx
      · cases h
    · rintro e w' calls ⟨x, ⟨body, -, h, -⟩ | ⟨e', back, hx, -, hback, rfl⟩⟩
      · cases h
      · exact .stopped .nil (nil_subset _) hx (by rwa [append_nil])

end

/-- The calls of a whole reconfiguration: none to an agent, or one fan-out. -/
inductive Ran (command : ClusterReconfigureCommandPayloadV3) (app : MasterApp) :
    List (Call × Choice) → Prop where
  | idle {calls : List (Call × Choice)} (silent : ∀ event ∈ calls, ∀ sent, event.1 ≠ .request sent) :
      Ran command app calls
  | fanned {swap : Reconfiguration} {r : Except JsError (List (AppReplica × AgentBody))}
      {first fan last : List (Call × Choice)} (hcommand : swap.command = command)
      (happ : swap.app = app) (silent : ∀ event ∈ first, ∀ sent, event.1 ≠ .request sent)
      (fans : Fans swap [] app.replicas r fan)
      (silent' : ∀ event ∈ last, ∀ sent, event.1 ≠ .request sent) :
      Ran command app (first ++ fan ++ last)

section

variable {law : Law} {deps : DeploymentDeps} {workspaceId : String}
  {command : ClusterReconfigureCommandPayloadV3} {w : World} {app : MasterApp}

/-- No call of the program reaches an agent. -/
abbrev IsSilent {α : Type} (p : Async α) : Prop := Asks (fun c : Call ↦ ∀ sent, c ≠ .request sent) p

theorem isSilent_of_incidental {α : Type} {p : Async α} (h : Asks Deployment.Incidental p) :
    IsSilent p := by
  apply h.imp
  rintro _ hquiet sent rfl
  exact hquiet.1

theorem Ran.around {calls : List (Call × Choice)} (h : Ran command app calls)
    (hfirst : ∀ event ∈ first, ∀ sent, event.1 ≠ .request sent)
    (hlast : ∀ event ∈ last, ∀ sent, event.1 ≠ .request sent) :
    Ran command app (first ++ calls ++ last) := by
  have happend : ∀ {before after : List (Call × Choice)},
      (∀ event ∈ before, ∀ sent, event.1 ≠ .request sent) →
      (∀ event ∈ after, ∀ sent, event.1 ≠ .request sent) →
      ∀ event ∈ before ++ after, ∀ sent, event.1 ≠ .request sent := by
    intro before after hbefore hafter event hevent
    obtain hevent | hevent := mem_append.mp hevent
    · exact hbefore event hevent
    · exact hafter event hevent
  cases h with
  | idle silent => exact .idle (happend (happend hfirst silent) hlast)
  | @fanned swap r before fan after hcommand happ silent fans silent' =>
    rw [show first ++ (before ++ fan ++ after) ++ last =
      (first ++ before) ++ fan ++ (after ++ last) by simp]
    exact .fanned hcommand happ (happend hfirst silent) fans (happend silent' hlast)

theorem traces_silent {α : Type} {p : Async α} (hp : IsSilent p) :
    Traces (cluster law) (fun _ _ calls ↦ Ran command app calls) p w :=
  (hp.traces w).imp fun _ _ _ hsilent ↦ .idle hsilent

theorem isSilent_checkResize {resources : Option ContainerResources} :
    IsSilent (checkResize workspaceId app resources) := by
  apply isSilent_of_incidental
  have hload : Asks Deployment.Incidental (loadReplicaNodes app) :=
    asks_findNodes.bind fun _ ↦ Asks.throwIf.bind fun _ ↦ trivial
  cases resources with
  | none => exact hload
  | some requested =>
    apply Asks.bind (asks_installedApps.bind fun _ ↦ asks_assertWithin)
    intro _
    apply hload.bind
    intro nodes
    apply asks_findApps.bind
    intro running
    exact Asks.ofExcept.bind fun _ ↦ trivial

/-- The nodes that come out of the checks cover the replicas. -/
theorem covers_checkResize {resources : Option ContainerResources} :
    Traces (cluster law) (fun r _ _ ↦ ∀ nodes, r = .ok nodes → ∀ replica ∈ app.replicas,
      (nodeOf nodes replica.nodeId).isSome)
      (checkResize workspaceId app resources) w := by
  have hload : ∀ w', Traces (cluster law) (fun r _ _ ↦ ∀ nodes, r = .ok nodes →
      ∀ replica ∈ app.replicas, (nodeOf nodes replica.nodeId).isSome)
      (loadReplicaNodes app) w' := by
    intro w'
    apply (asks_findNodes.traces w').bind
    · intro nodes w'' _ _
      apply Traces.guard
      · exact nofun
      · intro hcovered found hfound replica hreplica
        obtain rfl := Except.ok.inj hfound
        simp only [List.any_eq_true, Bool.not_eq_true', not_exists, not_and, Bool.not_eq_false]
          at hcovered
        exact find?_isSome.mpr (by simpa using hcovered replica hreplica)
    · exact fun _ _ _ _ _ h ↦ nomatch h
  cases resources with
  | none => exact hload w
  | some requested =>
    apply ((asks_installedApps.bind fun _ ↦
      asks_assertWithin).traces w).bind
    · intro _ w₁ _ _
      apply (hload w₁).bind
      · intro nodes w₂ _ hnodes
        apply (asks_findApps.traces w₂).bind
        · intro running w₃ _ _
          apply Traces.ofExcept_bind
          · exact nofun
          · intro _ _ found hfound
            exact hnodes found hfound
        · exact nofun
      · exact nofun
    · exact nofun

theorem isSilent_platformEnvVarsV3 : IsSilent (platformEnvVarsV3 deps app) := by
  have hurl : IsSilent (resolvePrimaryUrl deps app) := by
    unfold resolvePrimaryUrl
    split
    · exact (Asks.ask fun _ h ↦ nomatch h).bind fun _ ↦ trivial
    · trivial
  exact hurl.bind fun _ ↦ trivial

/-- After the fan-out the record is written, and no agent is asked any more. -/
theorem applyReconfigure_traces :
    Traces (cluster law) (fun _ _ calls ↦ Ran command app calls)
      (applyReconfigure deps workspaceId command app) w := by
  apply ((isSilent_checkResize.traces w).and covers_checkResize).bind
  · rintro nodes w₁ first ⟨hfirst, hcovers⟩
    apply (isSilent_platformEnvVarsV3.traces w₁).bind
    · intro platformEnvVars w₂ more hmore
      have hsilent : ∀ event ∈ first ++ more, ∀ sent, event.1 ≠ .request sent := by
        exact forall_mem_append.mpr ⟨hfirst, hmore⟩
      have hnone : ∀ replica ∈ ([] : List (AppReplica × AgentBody)).map (·.1),
          (nodeOf nodes replica.nodeId).isSome := by simp
      apply (fanOut_traces (hcovers nodes rfl) hnone).bind
      · intro done w₃ fan hfans
        have hlast {p : Async Reconfigured} (hp : IsSilent p) : Traces (cluster law)
            (fun _ _ last ↦ Ran command app (first ++ (more ++ (fan ++ last)))) p w₃ := by
          apply (hp.traces w₃).imp
          intro r w₄ last hlast
          rw [← append_assoc, ← append_assoc]
          exact .fanned rfl rfl hsilent hfans hlast
        apply hlast
        apply Asks.bind (Asks.ask fun _ h ↦ by cases h)
        intro appliedAt
        apply Asks.bind (Asks.ask fun _ h ↦ by cases h)
        intro persisted
        apply Asks.throwIf.bind
        intro _
        apply Asks.bind (Asks.ask fun _ h ↦ by cases h)
        intro reconfigured
        split
        · trivial
        · apply Asks.bind
          · apply Asks.forSome
            intro resources
            exact Asks.bind (Asks.ask fun _ h ↦ by cases h) fun _ ↦ Asks.ask fun _ h ↦ by cases h
          · intro _
            trivial
      · intro e w₃ fan hfans
        rw [← append_assoc, ← append_nil (first ++ more ++ fan)]
        exact .fanned rfl rfl hsilent hfans fun _ h ↦ by cases h
    · intro e w₂ more hmore
      apply Ran.idle
      exact forall_mem_append.mpr ⟨hfirst, hmore⟩
  · rintro e w₁ first ⟨hfirst, -⟩
    exact .idle hfirst

theorem reconfigureMcpV3_traces
    (hfound : w.apps.docs.find? (isInstallation workspaceId command.runtimeInstallationId) = some app) :
    Traces (cluster law) (fun _ _ calls ↦ Ran command app calls)
      (reconfigureMcpV3 deps workspaceId command) w := by
  apply (traces_awaitCall (.acquire workspaceId) (Q := fun _ w' calls ↦ w'.apps = w.apps ∧
    ∀ event ∈ calls, ∀ sent, event.1 ≠ .request sent) ?_).bind
  · rintro _ w₁ first ⟨happs, hfirst⟩
    apply Traces.finallyDo
    apply Traces.imp (Q := fun _ _ calls ↦ Ran command app calls)
    · apply traces_findOneApp
      · intro x _
        have hrecord : w₁.apps.docs.find? (fun app ↦ app.workspaceId == workspaceId &&
            app.kind == some .mcpV3 &&
            app.mcpRuntimeInstallationId == some command.runtimeInstallationId &&
            app.state != .removed) = some app := happs ▸ hfound
        rw [hrecord]
        have hlookup : ∀ event ∈ [((.apps (.findOne (isInstallation workspaceId
            command.runtimeInstallationId)) : Call), x)], ∀ sent, event.1 ≠ .request sent := by
          intro event hevent
          rw [mem_singleton.mp hevent]
          exact fun _ h ↦ by cases h
        refine (show Traces (cluster law) (fun _ _ calls ↦ Ran command app calls) _ w₁ from ?_).imp ?_
        · apply Traces.guard (fun _ ↦ .idle fun _ h ↦ by cases h)
          intro _
          apply Traces.guard (fun _ ↦ .idle fun _ h ↦ by cases h)
          intro _
          apply Traces.guard (fun _ ↦ .idle fun _ h ↦ by cases h)
          intro _
          split
          · exact traces_silent Asks.ofExcept
          · exact applyReconfigure_traces
        · intro r w' calls hran
          have haround := hran.around hlookup (fun _ h ↦ (by cases h) : ∀ event ∈ [], _)
          rwa [append_nil] at haround
      · intro x _
        apply Ran.idle
        intro event hevent
        rw [mem_singleton.mp hevent]
        exact fun _ h ↦ by cases h
    · intro r w₂ calls hran
      have hrelease : IsSilent (awaitCall (.release workspaceId)) := Asks.ask fun _ h ↦ by cases h
      apply (hrelease.traces w₂).imp
      intro r' w₃ last hlast
      have haround := hran.around hfirst hlast
      rw [append_assoc] at haround
      cases r' <;> exact haround
  · rintro e w₁ first ⟨-, hfirst⟩
    exact .idle hfirst
  · intro x _
    refine ⟨rfl, fun event hevent ↦ ?_⟩
    rw [mem_singleton.mp hevent]
    exact fun _ h ↦ by cases h

end

/-! ## What the replicas run with after a failure -/

section

variable {deps : DeploymentDeps} {app : MasterApp} {swap : Reconfiguration}
  {moved : List AppReplica} {calls calls' : List (Call × Choice)}

theorem unmoved_append : Unmoved (calls ++ calls') ↔ Unmoved calls ∧ Unmoved calls' := by
  simp only [Unmoved, mem_append, or_imp, forall_and]

theorem refused_append : Refused (calls ++ calls') ↔ Refused calls ∨ Refused calls' := by
  simp only [Refused, mem_append, or_and_right, exists_or]

theorem not_refused_of_no_request (h : ∀ event ∈ calls, ∀ sent, event.1 ≠ .request sent) :
    ¬ Refused calls :=
  fun ⟨event, hevent, sent, _, hsent, _⟩ ↦ h event hevent sent hsent

theorem not_refused_of_confirmed (h : ∀ event ∈ calls, confirmed event.2) :
    ¬ Refused calls := by
  rintro ⟨event, hevent, _, response, -, hanswer, hstatus⟩
  have hconfirmed := h event hevent
  simp only [confirmed, hanswer, any_some, decide_eq_true_eq] at hconfirmed
  omega

variable {resources : ContainerResources}

/-- Confirmed calls to some replicas move something, unless there are none. -/
theorem unmoved_iff_of_confirmed
    (hsent : calls.map (·.1) = moved.map (reconfigureCall swap resources))
    (hconfirmed : ∀ event ∈ calls, confirmed event.2) : Unmoved calls ↔ moved = [] := by
  cases moved with
  | nil =>
    obtain rfl : calls = [] := by simpa using hsent
    exact iff_of_true (fun _ h ↦ nomatch h) rfl
  | cons replica rest =>
    apply iff_of_false
    · intro hunmoved
      cases calls with
      | nil => simp at hsent
      | cons event others =>
        have hfirst := hunmoved event mem_cons_self _ (List.cons.inj hsent).1
        rw [hconfirmed event mem_cons_self] at hfirst
        cases hfirst
    · exact cons_ne_nil _ _

/-- Where some replicas of the record were moved, the record is kept only by what it says. -/
theorem runsAsRecorded_iff_of_moved {fleet fleet' : FleetConfig} {env : List (String × String)}
    (initial : RunsAsRecorded deps app fleet) (hmem : moved ⊆ app.replicas)
    (hmoved : ∀ n i, fleet' n i =
      if moved.any (isAt n i) then some ⟨env, resources⟩ else fleet n i) :
    RunsAsRecorded deps app fleet' ↔ moved = [] ∨
      (∃ recorded, operatorEnvOf deps.crypto app = .ok recorded ∧ SameEnv env recorded) ∧
        resources = app.resources := by
  constructor
  · rintro ⟨recorded, hrecorded, hruns⟩
    cases moved with
    | nil => exact .inl rfl
    | cons replica rest =>
      obtain ⟨config, hconfig, henv, hresources⟩ := hruns replica (hmem mem_cons_self)
      have hat : isAt replica.nodeId replica.containerId replica := isAt_iff.mpr ⟨rfl, rfl⟩
      rw [hmoved, any_cons, hat] at hconfig
      obtain rfl := some.inj hconfig
      exact .inr ⟨⟨recorded, hrecorded, henv⟩, hresources⟩
  · intro h
    obtain ⟨recorded, hrecorded, hruns⟩ := initial
    refine ⟨recorded, hrecorded, fun replica hreplica ↦ ?_⟩
    rw [hmoved]
    split
    next hany =>
      obtain rfl | ⟨⟨recorded', hrecorded', henv⟩, hresources⟩ := h
      · cases hany
      · obtain rfl := Except.ok.inj (hrecorded.symm.trans hrecorded')
        exact ⟨_, rfl, henv, hresources⟩
    next => exact hruns replica hreplica

/-- The last call of a fan-out that failed was answered, and so it was refused. -/
theorem refused_failed_iff {replica : AppReplica} (hfailed : confirmed x = false) :
    Refused [(reconfigureCall swap resources replica, x)] ↔ x.answer.isSome := by
  constructor
  · rintro ⟨event, hevent, _, response, -, hanswer, -⟩
    rw [mem_singleton.mp hevent] at hanswer
    rw [hanswer]
    rfl
  · intro hanswered
    obtain ⟨response, hanswer⟩ := isSome_iff_exists.mp hanswered
    refine ⟨_, mem_singleton_self _, _, response, rfl, hanswer, ?_⟩
    simpa [confirmed, hanswer] using hfailed

/-- Which replicas run with another configuration after a fan-out, and with what resources. -/
structure Moves (swap : Reconfiguration) (moved : List AppReplica) (resources : ContainerResources)
    (calls : List (Call × Choice)) : Prop where
  mem : moved ⊆ swap.app.replicas
  unmoved : Unmoved calls ↔ moved = []
  configured : ∀ fleet n i, reconfiguredBy calls fleet n i =
    if moved.any (isAt n i) then some ⟨swap.command.envVars, resources⟩ else fleet n i
  resources : resources = swap.app.resources ↔ swap.requested = swap.app.resources ∨ Refused calls

theorem Fanned.moves (h : Fanned swap moved calls) (hmem : moved ⊆ swap.app.replicas) :
    Moves swap moved swap.requested calls where
  mem := hmem
  unmoved := unmoved_iff_of_confirmed h.sent h.accepted
  configured _ _ _ := reconfiguredBy_confirmed h.sent h.accepted
  resources := (or_iff_left (not_refused_of_confirmed h.accepted)).symm

/-- A failed fan-out whose rollbacks succeed. -/
theorem Fanned.moves_stopped (h : Fanned swap moved calls) (hmem : moved ⊆ swap.app.replicas)
    (hfailed : confirmed x = false) (hback : RollsBack swap moved x back)
    (hconfirmed : ∀ event ∈ back, confirmed event.2) :
    ∃ resources, Moves swap moved resources
      (calls ++ (reconfigureCall swap swap.requested failed, x) :: back) := by
  have hcall : Unmoved [(reconfigureCall swap swap.requested failed, x)] := by
    intro event hevent _ _
    rw [mem_singleton.mp hevent]
    exact hfailed
  rw [← singleton_append (x := (reconfigureCall swap swap.requested failed, x))]
  by_cases hrolls : x.answer.isSome ∧ swap.command.resources.isSome
  · have hsent := hback.complete hrolls.1 hrolls.2 hconfirmed
    refine ⟨swap.app.resources, hmem, ?_, fun fleet n i ↦ ?_, ?_⟩
    · rw [unmoved_append, unmoved_append, unmoved_iff_of_confirmed h.sent h.accepted,
        unmoved_iff_of_confirmed hsent hconfirmed]
      exact ⟨And.left, fun hnone ↦ ⟨hnone, hcall, hnone⟩⟩
    · rw [reconfiguredBy_append, reconfiguredBy_append, reconfiguredBy_of_unmoved hcall,
        reconfiguredBy_confirmed hsent hconfirmed, reconfiguredBy_confirmed h.sent h.accepted]
      split <;> rfl
    · refine iff_of_true rfl (.inr ?_)
      rw [refused_append, refused_append, refused_failed_iff hfailed]
      exact .inr (.inl hrolls.1)
  · obtain rfl := hback.idle hrolls
    rw [append_nil]
    refine ⟨swap.requested, hmem, ?_, fun fleet n i ↦ ?_, ?_⟩
    · rw [unmoved_append, unmoved_iff_of_confirmed h.sent h.accepted]
      exact and_iff_left hcall
    · rw [reconfiguredBy_append, reconfiguredBy_of_unmoved hcall,
        reconfiguredBy_confirmed h.sent h.accepted]
    · rw [refused_append, refused_failed_iff hfailed]
      constructor
      · exact .inl
      · rintro (hsame | hrefused | hanswered)
        · exact hsame
        · exact absurd hrefused (not_refused_of_confirmed h.accepted)
        · have hnone := not_isSome_iff_eq_none.mp fun hsome ↦ hrolls ⟨hanswered, hsome⟩
          rw [Reconfiguration.requested, hnone]
          rfl

theorem RollbacksSucceed.confirmed {before : List (Call × Choice)}
    (h : RollbacksSucceed (before ++ (reconfigureCall swap resources failed, x) :: (back ++ last)))
    (hfailed : RuntimeSwap.confirmed x = false) (hback : RollsBack swap moved x back) :
    ∀ event ∈ back, RuntimeSwap.confirmed event.2 := by
  intro event hevent
  have hfails : fails (reconfigureCall swap resources failed, x) := by
    simp [fails, reconfigureCall, hfailed]
  have hlater := h before _ _ rfl hfails event (mem_append_left _ hevent)
  obtain ⟨replica, hcall⟩ := hback.requests event hevent
  obtain ⟨c, y⟩ := event
  obtain rfl : c = reconfigureCall swap swap.app.resources replica := hcall
  simpa [fails, reconfigureCall] using hlater

theorem Fans.moves (h : Fans swap [] swap.app.replicas r calls)
    (rollbacks : RollbacksSucceed (first ++ calls ++ last)) :
    ∃ moved resources, Moves swap moved resources calls := by
  cases h with
  | complete fanned => exact ⟨_, _, fanned.moves (List.Subset.refl _)⟩
  | @stopped _ moved failed x calls back fanned mem failure rollsBack =>
    rw [← append_assoc, append_assoc] at rollbacks
    have hconfirmed := rollbacks.confirmed failure rollsBack
    exact ⟨moved, fanned.moves_stopped mem failure rollsBack hconfirmed⟩

/-- Calls that reach no agent around a fan-out change nothing. -/
theorem Moves.around (h : Moves swap moved resources calls)
    (hfirst : ∀ event ∈ first, ∀ sent, event.1 ≠ .request sent)
    (hlast : ∀ event ∈ last, ∀ sent, event.1 ≠ .request sent) :
    Moves swap moved resources (first ++ calls ++ last) where
  mem := h.mem
  unmoved := by
    rw [unmoved_append, unmoved_append, ← h.unmoved]
    exact ⟨fun h ↦ h.1.2, fun h ↦ ⟨⟨unmoved_of_no_request hfirst, h⟩, unmoved_of_no_request hlast⟩⟩
  configured fleet n i := by
    rw [reconfiguredBy_append, reconfiguredBy_append,
      reconfiguredBy_of_unmoved (unmoved_of_no_request hlast),
      reconfiguredBy_of_unmoved (unmoved_of_no_request hfirst), h.configured]
  resources := by
    rw [h.resources, refused_append, refused_append,
      or_iff_left (not_refused_of_no_request hlast),
      or_iff_right (not_refused_of_no_request hfirst)]

/-- After a throw the replicas run with what the record says, exactly when no agent had confirmed
anything, or the command agrees with the record in all that is left behind. -/
theorem throw_restores_iff {law : Law} {workspaceId : String}
    {command : ClusterReconfigureCommandPayloadV3} {w w' : World} {e : JsError}
    {fleet : FleetConfig}
    (hfound : w.apps.docs.find? (isInstallation workspaceId command.runtimeInstallationId) = some app)
    (initial : RunsAsRecorded deps app fleet)
    (run : Executes (cluster law).traced (reconfigureMcpV3 deps workspaceId command) (w, [])
      (.threw e) (w', calls))
    (rollbacks : RollbacksSucceed calls) :
    RunsAsRecorded deps app (reconfiguredBy calls fleet) ↔
      Unmoved calls ∨ Unchanging deps command app calls := by
  have hran := (reconfigureMcpV3_traces hfound).post (r := .error e) run
  cases hran with
  | idle silent =>
    have hunmoved := unmoved_of_no_request silent
    rw [reconfiguredBy_of_unmoved hunmoved]
    exact iff_of_true initial (.inl hunmoved)
  | fanned hcommand happ silent fans silent' =>
    subst hcommand happ
    obtain ⟨moved, resources, hmoves⟩ := fans.moves rollbacks
    have haround := hmoves.around silent silent'
    rw [runsAsRecorded_iff_of_moved initial haround.mem (haround.configured fleet), haround.unmoved,
      haround.resources]
    exact or_congr_right ⟨fun h ↦ ⟨h.1, h.2⟩, fun h ↦ ⟨h.environment, h.resources⟩⟩

/-- Rollbacks succeed where at most one request of the run fails. -/
theorem rollbacksSucceed_of_length_le (h : (calls.filter fails).length ≤ 1) :
    RollbacksSucceed calls := by
  rintro before event after rfl hevent later hlater
  by_contra hfails
  have hmem : later ∈ after.filter fails := mem_filter.mpr ⟨hlater, by simpa using hfails⟩
  have hpos := length_pos_of_mem hmem
  rw [filter_append, filter_cons_of_pos hevent, length_append, length_cons] at h
  omega

end

end RuntimeSwap

namespace Sample

open RuntimeSwap

/-- A generation with two replicas. -/
def doubled : MasterApp :=
  { configured (some 1) with
    replicas := [{ replicaId := "r1", nodeId := "n1", containerId := "c1", state := "running" },
      { replicaId := "r2", nodeId := "n1", containerId := "c2", state := "running" }] }

def doubledWorld : World := world doubled nodup_upgradable

def doubledFleet : FleetConfig := fun nodeId containerId ↦
  if nodeId = "n1" ∧ (containerId = "c1" ∨ containerId = "c2") then some ⟨[], ⟨256, 1, 64⟩⟩ else none

def resizeCommand : ClusterReconfigureCommandPayloadV3 :=
  { reconfigureCommand with resources := some ⟨512, 1, 64⟩ }

/-- The agent refuses the second replica. -/
def refusing : Call → Choice
  | .request ⟨_, _, .mcpV3Reconfigure "c2" _⟩ => { answer := some ⟨500, {}⟩ }
  | _ => {}

def halfResized : Except JsError Reconfigured × World × List (Call × Choice) :=
  (cluster anyLaw).traced.run (fun c _ ↦ refusing c)
    (reconfigureMcpV3 deploymentDeps "acme" resizeCommand) (doubledWorld, [])

theorem halfResized_fails : halfResized.1.toOption.isNone ∧
    (halfResized.2.2.filter fails).length ≤ 1 ∧
      reconfiguredBy halfResized.2.2 doubledFleet "n1" "c1" =
        some ⟨[("LOG_LEVEL", "debug")], ⟨256, 1, 64⟩⟩ := by
  decide +kernel

theorem executes_halfResized : ∃ e, Executes (cluster anyLaw).traced
    (reconfigureMcpV3 deploymentDeps "acme" resizeCommand) (doubledWorld, []) (.threw e)
    halfResized.2 := by
  have hrun : Executes (cluster anyLaw).traced
      (reconfigureMcpV3 deploymentDeps "acme" resizeCommand) (doubledWorld, [])
      (.ofExcept halfResized.1) halfResized.2 := Machine.executes_run _ _ (fun _ _ ↦ trivial) _ _
  have hnone := halfResized_fails.1
  cases hr : halfResized.1 with
  | ok done => simp [hr, Except.toOption] at hnone
  | error e =>
    rw [hr] at hrun
    exact ⟨e, hrun⟩

theorem doubled_found : doubledWorld.apps.docs.find?
    (isInstallation "acme" resizeCommand.runtimeInstallationId) = some doubled := by
  have hmatch : isInstallation "acme" "installation" doubled :=
    show isInstallation "acme" "installation" upgradable by decide +kernel
  exact find?_cons_of_pos hmatch

theorem doubled_runsAsRecorded : RunsAsRecorded deploymentDeps doubled doubledFleet := by
  refine ⟨[], rfl, forall_mem_cons.mpr ⟨?_, forall_mem_singleton.mpr ?_⟩⟩
  · exact ⟨_, rfl, fun _ ↦ rfl, rfl⟩
  · exact ⟨_, rfl, fun _ ↦ rfl, rfl⟩

end Sample

namespace RuntimeSwap

/-- The first replica is sent back to its size, and keeps the environment of the command. -/
theorem rollback_keeps_environment : ∃ e w' calls,
    Executes (cluster anyLaw).traced
      (reconfigureMcpV3 Sample.deploymentDeps "acme" Sample.resizeCommand)
      (Sample.doubledWorld, []) (.threw e) (w', calls) ∧
    RunsAsRecorded Sample.deploymentDeps Sample.doubled Sample.doubledFleet ∧
    RollbacksSucceed calls ∧
    ¬ RunsAsRecorded Sample.deploymentDeps Sample.doubled (reconfiguredBy calls Sample.doubledFleet) := by
  obtain ⟨e, hrun⟩ := Sample.executes_halfResized
  obtain ⟨-, hlength, hconfig⟩ := Sample.halfResized_fails
  refine ⟨e, _, _, hrun, Sample.doubled_runsAsRecorded, rollbacksSucceed_of_length_le hlength, ?_⟩
  rintro ⟨env, henv, hruns⟩
  obtain rfl : env = [] := (Except.ok.inj henv).symm
  obtain ⟨config, hfirst, hsame, -⟩ := hruns _ mem_cons_self
  obtain rfl := Option.some.inj (hconfig.symm.trans hfirst)
  exact absurd (hsame "LOG_LEVEL") (by decide)

theorem throw_restores_iff_doubled : ∃ e w' calls,
    Executes (cluster anyLaw).traced
      (reconfigureMcpV3 Sample.deploymentDeps "acme" Sample.resizeCommand)
      (Sample.doubledWorld, []) (.threw e) (w', calls) ∧
    (RunsAsRecorded Sample.deploymentDeps Sample.doubled (reconfiguredBy calls Sample.doubledFleet) ↔
      Unmoved calls ∨
        Unchanging Sample.deploymentDeps Sample.resizeCommand Sample.doubled calls) := by
  obtain ⟨e, hrun⟩ := Sample.executes_halfResized
  exact ⟨e, _, _, hrun, throw_restores_iff Sample.doubled_found Sample.doubled_runsAsRecorded hrun
    (rollbacksSucceed_of_length_le Sample.halfResized_fails.2.1)⟩

end RuntimeSwap

end PrivosCluster
