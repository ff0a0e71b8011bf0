import PrivosCluster.Master.InventoryFreeze
import PrivosCluster.Master.UpgradeSpec

/-!
# What an upgrade leaves on the containers

The agent builds a container anew on every redeploy and labels it with the binding it was sent.
When the new container does not come up it restores the old image, from a binding that has the
digests of the old labels and everything else from the request. The labels after a run follow
from the requests of the run and their answers.
-/

namespace PrivosCluster

open AsyncProgram DocumentStore List Option

/-- The labels of a managed container that tell the version it runs. -/
structure RuntimeLabels where
  imageDigest : String
  manifestDigest : String
  authorizationEpoch : Nat
deriving DecidableEq

/-- The labels of the managed containers of the fleet, by node and container id. -/
abbrev FleetLabels := String → String → Option RuntimeLabels

variable {replica : AppReplica} {x : Choice} {replicas : List AppReplica} {P : AgentResponse → Prop}

namespace RuntimeSwap

def labelsOf (binding : McpV3Binding) : RuntimeLabels :=
  ⟨binding.imageDigest, binding.manifestDigest, binding.authorizationEpoch⟩

/-- `mcpV3PreviousBinding`: the requested binding with the digests of the old container. -/
def previousBinding (binding : McpV3Binding) (labels : RuntimeLabels) : McpV3Binding :=
  { binding with imageDigest := labels.imageDigest, manifestDigest := labels.manifestDigest }

/-- `redeployContainer`, as its answer tells it; without one nothing is known. -/
def redeployContainer (binding : McpV3Binding) (unknown old : Option RuntimeLabels) :
    Option AgentResponse → Option RuntimeLabels
  | none => unknown
  | some response =>
    if response.status < 300 then some (labelsOf binding)
    else match response.body.recovered with
      | some true => old.map fun labels ↦ labelsOf (previousBinding binding labels)
      | some false => none
      | none => unknown

/-- What one call does to the labels. A raw redeploy of a managed container is refused. -/
def relabel (unknown : Call × Choice → Option RuntimeLabels) (labels : FleetLabels)
    (event : Call × Choice) : FleetLabels :=
  match event.1 with
  | .request ⟨nodeId, _, .redeploy containerId body⟩ =>
    match body.managed with
    | some managed => fun n i ↦
      if n = nodeId ∧ i = containerId then
        redeployContainer managed.mcpV3Binding (unknown event) (labels n i) event.2.answer
      else labels n i
    | none => labels
  | _ => labels

/-- The labels after the calls of an upgrade, which sends no other request than redeploys. -/
def relabelled (unknown : Call × Choice → Option RuntimeLabels) (calls : List (Call × Choice))
    (labels : FleetLabels) : FleetLabels :=
  calls.foldl (relabel unknown) labels

/-- A redeploy of the container got such an answer. -/
def Answered (calls : List (Call × Choice)) (nodeId containerId : String)
    (P : AgentResponse → Prop) : Prop :=
  ∃ workspaceId body x response,
    (.request ⟨nodeId, workspaceId, .redeploy containerId body⟩, x) ∈ calls ∧
      x.answer = some response ∧ P response

def Accepted (response : AgentResponse) : Prop := response.status < 300

def Restored (response : AgentResponse) : Prop :=
  300 ≤ response.status ∧ response.body.recovered = some true

/-- The replica is the container with this id on this node. -/
def isAt (nodeId containerId : String) (replica : AppReplica) : Bool :=
  replica.nodeId == nodeId && replica.containerId == containerId

theorem isAt_iff {nodeId containerId : String} :
    isAt nodeId containerId replica ↔
      replica.nodeId = nodeId ∧ replica.containerId = containerId := by
  simp [isAt]

@[simp] theorem relabelled_nil : relabelled unknown [] labels = labels := rfl

section

variable {unknown : Call × Choice → Option RuntimeLabels} {labels : FleetLabels} {swap : Swap}
  {calls calls' : List (Call × Choice)} {n i : String}

theorem relabelled_singleton {event : Call × Choice} :
    relabelled unknown [event] labels = relabel unknown labels event := rfl

theorem relabelled_append :
    relabelled unknown (calls ++ calls') labels =
      relabelled unknown calls' (relabelled unknown calls labels) :=
  foldl_append

/-- Calls that reach no agent leave the labels alone. -/
theorem relabelled_of_no_request (h : ∀ event ∈ calls, ∀ sent, event.1 ≠ .request sent) :
    relabelled unknown calls labels = labels := by
  induction calls generalizing labels with
  | nil => rfl
  | cons event rest ih =>
    have hevent : relabel unknown labels event = labels := by
      unfold relabel
      split
      next sent => exact absurd ‹_› (h event (by simp) _)
      next => rfl
    rw [relabelled, foldl_cons, hevent]
    exact ih fun event' hevent' ↦ h event' (mem_cons_of_mem _ hevent')

variable {manifestDigest digest : String}

theorem relabel_redeployCall :
    relabel unknown labels (redeployCall swap replica digest manifestDigest, x) n i =
      if n = replica.nodeId ∧ i = replica.containerId then
        redeployContainer (upgradeBinding swap replica digest manifestDigest)
          (unknown (redeployCall swap replica digest manifestDigest, x)) (labels n i) x.answer
      else labels n i := rfl

/-- The labels a container has after a redeploy that went well. -/
def swappedTo (swap : Swap) (digest manifestDigest : String) : RuntimeLabels :=
  ⟨digest, manifestDigest, swap.command.resultingAuthorizationEpoch⟩

theorem redeployContainer_confirmed {binding : McpV3Binding} {unknown old : Option RuntimeLabels}
    (h : confirmed x) :
    redeployContainer binding unknown old x.answer = some (labelsOf binding) := by
  unfold confirmed at h
  cases hanswer : x.answer with
  | none => simp [hanswer] at h
  | some response =>
    have hstatus : response.status < 300 := by simpa [hanswer] using h
    rw [redeployContainer, if_pos hstatus]

/-- Redeploys that all went well leave the labels they were sent with. -/
theorem relabelled_confirmed (hcalls : calls.map (·.1) =
      replicas.map fun replica ↦ redeployCall swap replica digest manifestDigest)
    (hconfirmed : ∀ event ∈ calls, confirmed event.2) :
    relabelled unknown calls labels n i =
      if replicas.any (isAt n i) then some (swappedTo swap digest manifestDigest)
      else labels n i := by
  induction replicas generalizing calls labels with
  | nil =>
    obtain rfl : calls = [] := by simpa using hcalls
    rfl
  | cons replica rest ih =>
    obtain ⟨⟨c, x⟩, calls, rfl⟩ : ∃ event rest, calls = event :: rest := by
      cases calls with
      | nil => simp at hcalls
      | cons event rest => exact ⟨event, rest, rfl⟩
    obtain ⟨rfl, hrest⟩ := List.cons.inj hcalls
    have hx : confirmed x := hconfirmed _ mem_cons_self
    rw [relabelled, foldl_cons, ← relabelled,
      ih hrest fun event hevent ↦ hconfirmed event (mem_cons_of_mem _ hevent),
      relabel_redeployCall, redeployContainer_confirmed hx]
    by_cases hrest : rest.any (isAt n i)
    · simp [hrest]
    · by_cases hat : isAt n i replica
      · obtain ⟨rfl, rfl⟩ := isAt_iff.mp hat
        simp [hrest, hat, swappedTo, labelsOf, upgradeBinding]
      · have hne : ¬ (n = replica.nodeId ∧ i = replica.containerId) :=
          fun h ↦ hat (isAt_iff.mpr ⟨h.1.symm, h.2.symm⟩)
        simp [hrest, hat, hne]

/-- How the last call of a failed forward swap was answered. -/
structure FailedAt (replicas : List AppReplica) (replica : AppReplica) (x : Choice)
    (recovered : Option Bool) : Prop where
  mem : replica ∈ replicas
  restored : recovered = some true → ∃ response, x.answer = some response ∧ Restored response
  bad : ∀ response, x.answer = some response → response.status < 300 →
    swapStrategy? response.body.swapStrategy = none

/-- All replicas have been swapped, or the last request failed. -/
def SwapEnd (swap : Swap) (replicas : List AppReplica) (succeeded : List Swapped)
    (last : List (Call × Choice)) : Option (JsError × Option Bool) → Prop
  | none => last = [] ∧ succeeded.map (·.replica) = replicas
  | some (_, recovered) => ∃ replica x, last = [(forwardCall swap replica, x)] ∧
      FailedAt replicas replica x recovered

/-- The requests of a forward swap: those that went well, and the one that did not. -/
theorem Forwards.split {succeeded : List Swapped} {failure : Option (JsError × Option Bool)}
    (h : Forwards swap replicas calls succeeded failure) :
    ∃ done last, calls = done ++ last ∧
      done.map (·.1) = (succeeded.map (·.replica)).map (forwardCall swap) ∧
      (∀ event ∈ done, confirmed event.2) ∧
      SwapEnd swap replicas succeeded last failure := by
  induction h with
  | done => exact ⟨[], [], rfl, rfl, fun _ h ↦ (by cases h), rfl, rfl⟩
  | @swapped replica rest x response swapStrategy calls succeeded failure answered accepted strategy
      others ih =>
    obtain ⟨done, last, rfl, hdone, hconfirmed, hlast⟩ := ih
    refine ⟨(forwardCall swap replica, x) :: done, last, rfl, by simp [hdone], ?_, ?_⟩
    · intro event hevent
      obtain rfl | hevent := mem_cons.mp hevent
      · simp [confirmed, answered, accepted]
      · exact hconfirmed event hevent
    · cases failure with
      | none => exact ⟨hlast.1, by rw [map_cons, hlast.2]⟩
      | some failure =>
        obtain ⟨replica', x', hlast, hfailed⟩ := hlast
        exact ⟨replica', x', hlast,
          ⟨mem_cons_of_mem _ hfailed.mem, hfailed.restored, hfailed.bad⟩⟩
  | @rejected replica rest x unanswered =>
    refine ⟨[], _, rfl, rfl, fun _ h ↦ (by cases h), replica, x, rfl, by simp, (by simp), ?_⟩
    intro response hanswer
    rw [unanswered] at hanswer
    cases hanswer
  | @refused replica rest x response answered refusal =>
    refine ⟨[], _, rfl, rfl, fun _ h ↦ (by cases h), replica, x, rfl, by simp, ?_, ?_⟩
    · exact fun hrecovered ↦ ⟨response, answered, refusal, hrecovered⟩
    · intro response' hanswer hstatus
      obtain rfl := some.inj (answered.symm.trans hanswer)
      omega
  | @unreadable replica rest x response answered accepted strategy =>
    refine ⟨[], _, rfl, rfl, fun _ h ↦ (by cases h), replica, x, rfl, by simp, (by simp), ?_⟩
    intro response' hanswer _
    obtain rfl := some.inj (answered.symm.trans hanswer)
    exact strategy

theorem answered_append :
    Answered (calls ++ calls') n i P ↔ Answered calls n i P ∨ Answered calls' n i P := by
  constructor
  · rintro ⟨workspaceId, body, x, response, hmem, hanswer⟩
    obtain hmem | hmem := mem_append.mp hmem
    · exact .inl ⟨workspaceId, body, x, response, hmem, hanswer⟩
    · exact .inr ⟨workspaceId, body, x, response, hmem, hanswer⟩
  · rintro (⟨workspaceId, body, x, response, hmem, hanswer⟩ |
      ⟨workspaceId, body, x, response, hmem, hanswer⟩)
    · exact ⟨workspaceId, body, x, response, mem_append_left _ hmem, hanswer⟩
    · exact ⟨workspaceId, body, x, response, mem_append_right _ hmem, hanswer⟩

theorem not_answered_of_no_request (h : ∀ event ∈ calls, ∀ sent, event.1 ≠ .request sent) :
    ¬ Answered calls n i P :=
  fun ⟨_, _, _, _, hmem, _⟩ ↦ h _ hmem _ rfl

theorem answered_redeployCall :
    Answered [(redeployCall swap replica digest manifestDigest, x)] n i P ↔
      isAt n i replica ∧ ∃ response, x.answer = some response ∧ P response := by
  rw [isAt_iff]
  constructor
  · rintro ⟨workspaceId, body, x', response, hmem, hanswer⟩
    cases mem_singleton.mp hmem
    exact ⟨⟨rfl, rfl⟩, response, hanswer⟩
  · rintro ⟨⟨rfl, rfl⟩, response, hanswer⟩
    exact ⟨_, _, x, response, mem_singleton_self _, hanswer⟩

/-- Of redeploys that all went well, the answers are acceptances. -/
theorem answered_confirmed (hcalls : calls.map (·.1) =
      replicas.map fun replica ↦ redeployCall swap replica digest manifestDigest)
    (hconfirmed : ∀ event ∈ calls, confirmed event.2) :
    (Answered calls n i Accepted ↔ replicas.any (isAt n i)) ∧
      ¬ Answered calls n i Restored := by
  induction replicas generalizing calls with
  | nil =>
    obtain rfl : calls = [] := by simpa using hcalls
    have hnone {P : AgentResponse → Prop} : ¬ Answered [] n i P :=
      not_answered_of_no_request fun _ h ↦ nomatch h
    exact ⟨iff_of_false hnone (by simp), hnone⟩
  | cons replica rest ih =>
    obtain ⟨⟨c, x⟩, calls, rfl⟩ : ∃ event rest, calls = event :: rest := by
      cases calls with
      | nil => simp at hcalls
      | cons event rest => exact ⟨event, rest, rfl⟩
    obtain ⟨rfl, hrest⟩ := List.cons.inj hcalls
    have hx : confirmed x := hconfirmed _ mem_cons_self
    obtain ⟨haccepted, hrestored⟩ :=
      ih hrest fun event hevent ↦ hconfirmed event (mem_cons_of_mem _ hevent)
    obtain ⟨response, hanswer, hstatus⟩ := Option.any_eq_true _ _ |>.mp hx
    have hstatus : response.status < 300 := by simpa using hstatus
    rw [← singleton_append, answered_append, answered_append, answered_redeployCall,
      answered_redeployCall, haccepted, any_cons, Bool.or_eq_true]
    refine ⟨⟨Or.imp_left And.left, Or.imp_left fun hat ↦ ⟨hat, response, hanswer, hstatus⟩⟩, ?_⟩
    rintro (⟨-, response', hanswer', hrefused, -⟩ | h)
    · obtain rfl := some.inj (hanswer.symm.trans hanswer')
      omega
    · exact hrestored h

end

end RuntimeSwap

end PrivosCluster
