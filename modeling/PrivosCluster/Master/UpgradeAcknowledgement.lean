import PrivosCluster.Master.UpgradeRouteSpec

/-!
# What an upgrade acknowledgement is worth

An acknowledgement tells the Hub whether a container was touched, and whether the record carries
the command. It is true of what happened except for a record without replicas, and it is missing
exactly when the inspection is not answered or the master cannot sign over the record.
-/

namespace PrivosCluster

open AsyncProgram DocumentStore RuntimeSwap Schema List Option

namespace RuntimeSwap

/-! ## Redeploys of a swap -/

def isRedeploy : Call → Bool
  | .request ⟨_, _, .redeploy _ _⟩ => true
  | _ => false

/-- Some agent was asked to put a container on another image. -/
def Redeployed (calls : List (Call × Choice)) : Prop := ∃ event ∈ calls, isRedeploy event.1 = true

theorem not_redeployed_of_isPlain {calls : List (Call × Choice)}
    (h : ∀ event ∈ calls, event.1.IsPlain) : ¬ Redeployed calls := by
  rintro ⟨event, hevent, hredeploy⟩
  unfold isRedeploy at hredeploy
  split at hredeploy
  next hcall =>
    have hplain := h event hevent
    rw [hcall] at hplain
    exact hplain
  · cases hredeploy

@[simp] theorem redeployed_append {calls calls' : List (Call × Choice)} :
    Redeployed (calls ++ calls') ↔ Redeployed calls ∨ Redeployed calls' := by
  simp [Redeployed, or_and_right, exists_or]

section

variable {law : Law} {deps : DeploymentDeps} {workspaceId : String}
  {command : ClusterUpgradeCommandPayloadV3} {swap : Swap} {upgraded : Upgraded} {app : MasterApp}
  {w w' : World} {calls : List (Call × Choice)}

theorem Forwards.redeployed {replicas : List AppReplica} {succeeded : List Swapped}
    {failure : Option (JsError × Option Bool)} (h : Forwards swap replicas calls succeeded failure)
    (hreplicas : replicas ≠ []) : Redeployed calls := by
  cases h with
  | done => exact absurd rfl hreplicas
  | swapped | rejected | refused | unreadable => exact ⟨_, mem_cons_self, rfl⟩

theorem Performs.redeployed {r : Except JsError Upgraded} (h : Performs law swap w r w' calls)
    (hreplicas : swap.app.replicas ≠ []) : Redeployed calls := by
  cases h with
  | upgraded apps forwards concludes =>
    exact redeployed_append.mpr (.inl (forwards.redeployed hreplicas))
  | reverted apps forwards concludes reverts apps' =>
    exact redeployed_append.mpr (.inl (redeployed_append.mpr (.inl (forwards.redeployed hreplicas))))

/-- Without replicas there is no common swap strategy, so the swap fails before any call. -/
theorem Performs.of_no_replicas {r : Except JsError Upgraded} (h : Performs law swap w r w' calls)
    (hreplicas : swap.app.replicas = []) : calls = [] ∧ ∃ e, r = .error e := by
  cases h with
  | upgraded apps forwards concludes =>
    rw [hreplicas] at forwards
    cases forwards
    cases concludes with
    | upgraded _ common => cases common
  | reverted apps forwards concludes reverts apps' =>
    rw [hreplicas] at forwards
    cases forwards
    cases concludes with
    | failed failure => cases failure
    | inconsistent =>
      rw [Reverts, map_nil, map_eq_nil_iff] at reverts
      rw [reverts]
      exact ⟨rfl, _, rfl⟩
    | unwritten _ common => cases common

theorem Performs.carries (h : Performs law swap w (.ok upgraded) w' calls) :
    ∃ app, w'.app swap.app.appId = some app ∧ Carries swap.command app := by
  cases h with
  | upgraded apps forwards concludes =>
    cases concludes with
    | upgraded succeeded common persists =>
      cases persists with
      | written fault fault' written =>
        obtain ⟨swapStrategy, time, -, rfl⟩ := written.strategy
        exact ⟨_, written.record, rfl, rfl, rfl⟩

theorem Upgrades.carries
    (h : Upgrades law deps workspaceId command w (.ok upgraded) w' calls)
    (found : w.apps.docs.find? (isInstallation workspaceId command.runtimeInstallationId) = some app) :
    ∃ app', w'.app app.appId = some app' ∧ Carries command app' := by
  cases h with
  | unswapped apps plain unready refused repeated =>
    obtain ⟨hcarries, hfound⟩ := repeated upgraded rfl
    obtain rfl := some.inj (hfound.symm.trans found)
    refine ⟨upgraded.app, ?_, hcarries⟩
    rw [World.app, apps]
    exact World.app_eq_some.mpr ⟨mem_of_find?_eq_some found, rfl⟩
  | swapped selects apps plain answered performs apps' unlocks =>
    obtain ⟨app', hrecord, hcarries⟩ := performs.carries
    obtain rfl := selects.ready.unique found
    rw [World.app, apps', ← selects.obeys]
    exact ⟨app', hrecord, hcarries⟩

end

end RuntimeSwap

variable {e : JsError} {swapStrategy : SwapStrategy}

namespace UpgradeRoute

/-! ## The state of an acknowledgement -/

/-- What a state claims about the calls of the request and the stored record. -/
def Truthful (command : ConsumedUpgradeCommand) (appId : String) (w : World)
    (calls : List (Call × Choice)) : UpgradeState → Prop
  | .refused => ¬ Redeployed calls
  | .rolledBack | .failed => Redeployed calls
  | .upgraded => ∃ app, w.app appId = some app ∧ Carries command.toClusterUpgradeCommandPayloadV3 app

/-- The swap is reached: image and record pass every check, and no call fails. -/
structure Attempted (deps : HubRouteDeps) (workspaceId : String) (command : ConsumedUpgradeCommand)
    (w : World) (app : MasterApp) (calls : List (Call × Choice)) : Prop where
  inspected : Inspected deps workspaceId command w app
  ready : Ready deps.deployment workspaceId command.toClusterUpgradeCommandPayloadV3 w app
  answered : ∀ event ∈ calls, ¬ Unanswered event

/-- Errors of drivers and sockets carry codes of their own. -/
def foreignCodes : Law := fun _ x _ ↦ ¬ IsSwapCode x.error.code

theorem stateOf_upgradeError (reason : UpgradeFailure) (reverted : List Bool) :
    stateOf (upgradeError reason reverted) = .rolledBack ∨
      stateOf (upgradeError reason reverted) = .failed := by
  have hcode : (upgradeError reason reverted).code = some (.text "MCP_V3_UPGRADE_SWAP_FAILED") ∨
      (upgradeError reason reverted).code = some (.text "MCP_V3_UPGRADE_PERSISTENCE_FAILED") := by
    unfold upgradeError
    cases reason.persistenceFailed
    · exact .inl rfl
    · exact .inr rfl
  unfold stateOf
  rw [if_pos hcode]
  split
  · exact .inl rfl
  · exact .inr rfl

section

variable {law : Law} {deps : HubRouteDeps} {workspaceId runtimeInstallationId : String}
  {command : ConsumedUpgradeCommand} {app : MasterApp} {state : UpgradeState} {errorCode : String}
  {input : UpgradeAcknowledgementInput} {signed : SignedAcknowledgement} {w w' : World}
  {calls : List (Call × Choice)}

variable {r : Except JsError SignedAcknowledgement}

theorem Signs.isPlain (h : Signs deps input w r w' calls) : ∀ event ∈ calls, event.1.IsPlain := by
  intro event hevent
  rw [h.clocked event hevent]
  trivial

theorem Signs.answered (h : Signs deps input w r w' calls) :
    ∀ event ∈ calls, ¬ Unanswered event := by
  rintro ⟨c, x⟩ hevent
  obtain rfl : c = .service .now := h.clocked _ hevent
  simp [Unanswered, Service.Fallible]

theorem Refuses.isPlain
    (h : Refuses deps workspaceId runtimeInstallationId command app state errorCode w r w' calls) :
    ∀ event ∈ calls, event.1.IsPlain := by
  cases h with
  | unread => simp [installationCall, Call.IsPlain, Operation.IsRead]
  | read fault signs =>
    rw [forall_mem_cons]
    exact ⟨trivial, signs.isPlain⟩

/-- A refusal that could be signed states what it was asked to state, and was read and signed. -/
theorem Refuses.of_signed
    (h : Refuses deps workspaceId runtimeInstallationId command app state errorCode w (.ok signed) w'
      calls) : signed.payload.state = state ∧ ∀ event ∈ calls, ¬ Unanswered event := by
  cases h with
  | read fault signs =>
    refine ⟨?_, ?_⟩
    · obtain ⟨_, time, ⟨⟩, hpayload, -⟩ | ⟨_, h, -⟩ := signs.outcome
      · rw [hpayload]
        rfl
      · cases h
    · rw [forall_mem_cons]
      exact ⟨not_not_intro fault, signs.answered⟩

theorem inspected_congr (quiet : Quiet w w') :
    Inspected deps workspaceId command w' app ↔ Inspected deps workspaceId command w app := by
  rw [Inspected, Inspected, quiet.nodes]

theorem attempted_congr (quiet : Quiet w w') :
    Attempted deps workspaceId command w' app calls ↔
      Attempted deps workspaceId command w app calls :=
  ⟨fun h ↦ ⟨(inspected_congr quiet).mp h.inspected, (ready_congr quiet).mp h.ready, h.answered⟩,
    fun h ↦ ⟨(inspected_congr quiet).mpr h.inspected, (ready_congr quiet).mpr h.ready, h.answered⟩⟩

theorem stateOf_of_foreign (h : ¬ IsSwapCode e.code) : stateOf e = .refused := if_neg h

/-- A failed upgrade is acknowledged with a state that is true of its calls, unless it is reached
without replicas. -/
theorem truthful_stateOf_iff {first last : List (Call × Choice)}
    (h : Upgrades law deps.deployment workspaceId command.toClusterUpgradeCommandPayloadV3 w (.error e)
      w' calls)
    (found : w.apps.docs.find? (isInstallation workspaceId command.runtimeInstallationId) = some app)
    (inspected : Inspected deps workspaceId command w app)
    (foreign : ∀ event ∈ calls, ¬ IsSwapCode event.2.error.code)
    (hfirst : ∀ event ∈ first, event.1.IsPlain ∧ ¬ Unanswered event)
    (hlast : ∀ event ∈ last, event.1.IsPlain ∧ ¬ Unanswered event) (w'' : World) :
    Truthful command app.appId w'' (first ++ (calls ++ last)) (stateOf e) ↔
      app.replicas ≠ [] ∨ ¬ Attempted deps workspaceId command w app (first ++ (calls ++ last)) := by
  have hquiet (hcalls : ¬ Redeployed calls) : ¬ Redeployed (first ++ (calls ++ last)) := by
    rw [redeployed_append, redeployed_append]
    rintro (h | h | h)
    · exact not_redeployed_of_isPlain (fun event hevent ↦ (hfirst event hevent).1) h
    · exact hcalls h
    · exact not_redeployed_of_isPlain (fun event hevent ↦ (hlast event hevent).1) h
  cases h with
  | unswapped apps plain unready refused repeated =>
    have hstate : stateOf e = .refused := by
      refine stateOf_of_foreign fun hcode ↦ ?_
      obtain ⟨event, hevent, he⟩ := refused e rfl hcode
      exact foreign event hevent (he ▸ hcode)
    rw [hstate]
    refine iff_of_true (hquiet (not_redeployed_of_isPlain plain)) (.inr fun hattempted ↦ ?_)
    obtain ⟨event, hevent, hfailed⟩ | hunready := unready
    · exact hattempted.answered event (by simp [hevent]) hfailed
    · exact hunready app hattempted.ready
  | @swapped swap _ w₁ w₂ _ before calls after selects apps plain answered performs apps' unlocks =>
    obtain rfl := selects.ready.unique found
    have hstate : stateOf e = .rolledBack ∨ stateOf e = .failed := by
      cases performs with
      | reverted => exact stateOf_upgradeError _ _
    have htruthful : Truthful command swap.app.appId w'' (first ++ (before ++ calls ++ after ++ last))
        (stateOf e) ↔ Redeployed (first ++ (before ++ calls ++ after ++ last)) := by
      rcases hstate with hstate | hstate <;> rw [hstate] <;> rfl
    rw [htruthful]
    by_cases hreplicas : swap.app.replicas = []
    · obtain ⟨rfl, -⟩ := performs.of_no_replicas hreplicas
      have hafter : ∀ event ∈ after, event.1.IsPlain ∧ ¬ Unanswered event := by
        rintro ⟨c, x⟩ hevent
        obtain rfl : c = .release workspaceId := unlocks _ hevent
        exact ⟨trivial, id⟩
      have hcalls : ∀ event ∈ before ++ [] ++ after, event.1.IsPlain ∧ ¬ Unanswered event := by
        intro event hevent
        rw [append_nil] at hevent
        exact (mem_append.mp hevent).elim
          (fun h ↦ ⟨plain event h, answered event h⟩) (hafter event)
      refine iff_of_false (hquiet (not_redeployed_of_isPlain fun event h ↦ (hcalls event h).1)) ?_
      rintro (hne | hunattempted)
      · exact hne hreplicas
      · refine hunattempted ⟨inspected, selects.ready, fun event hevent ↦ ?_⟩
        obtain h | h := mem_append.mp hevent
        · exact (hfirst event h).2
        · exact (mem_append.mp h).elim (fun h ↦ (hcalls event h).2) fun h ↦ (hlast event h).2
    · refine iff_of_true ?_ (.inl hreplicas)
      simp [performs.redeployed hreplicas]

theorem state_of_signs (h : Signs deps input w r w' calls) (hsigned : r.toOption = some signed) :
    signed.payload.state = input.state := by
  obtain ⟨_, time, rfl, hpayload, -⟩ | ⟨_, rfl, -⟩ := h.outcome
  · obtain rfl := some.inj hsigned
    rw [hpayload]
    rfl
  · cases hsigned

theorem Replies.truthful_iff
    (h : Replies law deps workspaceId command.runtimeInstallationId command app w (some signed) w'
      calls)
    (found : w.apps.docs.find? (isInstallation workspaceId command.runtimeInstallationId) = some app)
    (foreign : ∀ event ∈ calls, ¬ IsSwapCode event.2.error.code) :
    Truthful command app.appId w' calls signed.payload.state ↔
      app.replicas ≠ [] ∨ ¬ Attempted deps workspaceId command w app calls := by
  generalize hack : some signed = acknowledgement at h
  cases h with
  | silent => cases hack
  | @refused r _ _ _ _ _ quiet plain inspected _ _ refuses =>
    cases r with
    | error => cases hack
    | ok =>
      obtain rfl := some.inj hack
      rw [refuses.of_signed.1]
      refine iff_of_true ?_ (.inr fun hattempted ↦ inspected hattempted.inspected)
      rw [Truthful, redeployed_append]
      rintro (h | h)
      · exact not_redeployed_of_isPlain plain h
      · exact not_redeployed_of_isPlain refuses.isPlain h
  | @failed error r w₁ w₂ _ first middle last quiet plain answered inspected upgrades refuses =>
    cases r with
    | error => cases hack
    | ok =>
      obtain rfl := some.inj hack
      have hlast := refuses.of_signed
      rw [hlast.1]
      have hiff := truthful_stateOf_iff upgrades (quiet.apps.symm ▸ found)
        ((inspected_congr quiet).mpr inspected) (fun event hevent ↦ foreign event (by simp [hevent]))
        (fun event hevent ↦ ⟨plain event hevent, answered event hevent⟩)
        (fun event hevent ↦ ⟨refuses.isPlain event hevent, hlast.2 event hevent⟩) w'
      rw [hiff, attempted_congr quiet]
  | @upgraded applied r w₁ w₂ _ first middle last quiet plain answered inspected upgrades signs =>
    rw [state_of_signs signs hack.symm]
    obtain ⟨app', hrecord, hcarries⟩ := upgrades.carries (quiet.apps.symm ▸ found)
    refine iff_of_true ⟨app', ?_, hcarries⟩ ?_
    · rw [World.app, signs.apps]
      exact hrecord
    · cases upgrades with
      | unswapped apps plain unready refused repeated =>
        refine .inr fun hattempted ↦ ?_
        obtain ⟨event, hevent, hfailed⟩ | hunready := unready
        · exact hattempted.answered event (by simp [hevent]) hfailed
        · exact hunready app ((ready_congr quiet).mpr hattempted.ready)
      | swapped selects apps plain answered performs apps' unlocks =>
        obtain rfl := selects.ready.unique (quiet.apps.symm ▸ found)
        refine .inl fun hreplicas ↦ ?_
        obtain ⟨-, e, he⟩ := performs.of_no_replicas hreplicas
        cases he

theorem upgrade_traces_of_missing (law : Law) (deps : HubRouteDeps) (command : ConsumedUpgradeCommand)
    (missing : w.apps.docs.find? (isInstallation workspaceId runtimeInstallationId) = none) :
    Traces (cluster law) (fun r _ _ ↦ acknowledgementOf r = none)
      (upgrade deps workspaceId runtimeInstallationId command) w := by
  refine traces_findOneApp (isInstallation workspaceId runtimeInstallationId)
    (fun x _ ↦ ?_) fun x _ ↦ rfl
  rw [missing]
  exact Traces.pure rfl

/--
The state of an acknowledgement is true of the redeploys that were requested and of the stored
record, exactly when the record has replicas or the swap is not reached.
-/
theorem acknowledged_truthfully_iff {reply : UpgradeReply}
    (run : Executes (cluster foreignCodes).traced
      (upgrade deps workspaceId command.runtimeInstallationId command) (w, []) (.returned reply)
      (w', calls))
    (acknowledged : reply.acknowledgement = some signed) :
    ∃ app, w.apps.docs.find? (isInstallation workspaceId command.runtimeInstallationId) = some app ∧
      (Truthful command app.appId w' calls signed.payload.state ↔
        app.replicas ≠ [] ∨ ¬ Attempted deps workspaceId command w app calls) := by
  have hack : acknowledgementOf (.ok reply) = some signed := acknowledged
  cases hfound : w.apps.docs.find? (isInstallation workspaceId command.runtimeInstallationId) with
  | none =>
    have hnone := (upgrade_traces_of_missing foreignCodes deps command hfound).post (r := .ok reply)
      run
    rw [hack] at hnone
    cases hnone
  | some app =>
    have htraces : Traces (cluster foreignCodes) _ (upgrade deps workspaceId
        command.runtimeInstallationId command) w :=
      (upgrade_traces hfound).permitted (P := fun (_ : Call) (x : Choice) ↦
        ¬ IsSwapCode x.error.code) fun _ _ _ h ↦ h
    obtain ⟨hreplies, hforeign⟩ := htraces.post (r := .ok reply) run
    rw [hack] at hreplies
    exact ⟨app, rfl, hreplies.truthful_iff hfound hforeign⟩

/-! ## The presence of an acknowledgement -/

/-- The database answers, and the clock shows a date of the schema library. -/
def databaseAnswers : Law := fun c x w ↦
  (IsStore c → x.fault = .none) ∧ (c = .service .now → isDatetime (w.clock + x.elapsed) = true)

/-- The master has a signing identity and a valid issuer, and the record holds valid digests. -/
structure Acknowledgeable (deps : HubRouteDeps) (app : MasterApp) : Prop where
  loaded : ∃ kid, deps.identity = .ok kid
  issuer : isIdentifier (issuerOf deps) = true
  manifest : app.manifestDigest.all isDigest = true
  image : isDigest app.imageDigest = true

theorem Persists.faulted {swap : Swap} (h : Persists law swap swapStrategy w (.error e) w' calls) :
    ∃ event ∈ calls, IsStore event.1 ∧ event.2.fault ≠ .none := by
  cases h with
  | refused fault => exact ⟨_, mem_cons_of_mem _ mem_cons_self, trivial, by simp [fault]⟩
  | lost fault => exact ⟨_, mem_cons_of_mem _ mem_cons_self, trivial, by simp [fault]⟩
  | unread _ fault' =>
    exact ⟨_, mem_cons_of_mem _ (mem_cons_of_mem _ mem_cons_self), trivial, fault'⟩

/-- A failed upgrade has not touched the records when the database answers. -/
theorem apps_of_upgrades {deps : DeploymentDeps} {command : ClusterUpgradeCommandPayloadV3}
    (h : Upgrades law deps workspaceId command w (.error e) w' calls)
    (answered : ∀ event ∈ calls, IsStore event.1 → event.2.fault = .none) : w'.apps = w.apps := by
  cases h with
  | unswapped apps => exact apps
  | @swapped swap _ w₁ w₂ _ before calls after selects apps plain _ performs apps' unlocks =>
    rw [apps', ← apps]
    cases performs with
    | reverted happs forwards concludes reverts happs' =>
      rw [happs', ← happs]
      cases concludes with
      | failed => rfl
      | inconsistent => rfl
      | unwritten succeeded common persists =>
        obtain ⟨event, hevent, hstore, hfault⟩ := Persists.faulted persists
        exact absurd (answered event (by simp [hevent]) hstore) hfault

/-- The record of a performed upgrade carries the command and shows when it was written. -/
theorem carries_of_performs {swap : Swap} {upgraded : Upgraded}
    (h : Performs databaseAnswers swap w (.ok upgraded) w' calls) :
    Carries swap.command upgraded.app ∧ isDatetime upgraded.app.updatedAt := by
  cases h with
  | upgraded apps forwards concludes =>
    cases concludes with
    | upgraded succeeded common persists =>
      cases persists with
      | written fault fault' written =>
        obtain ⟨swapStrategy, time, ⟨x, w₀, hlaw, rfl⟩, rfl⟩ := written.strategy
        exact ⟨⟨rfl, rfl, rfl⟩, hlaw.2 rfl⟩

theorem signable_iff (verified : isUpgradeCommand command)
    (affine : command.clusterId = deps.clusterId) {manifestDigest imageDigest : String}
    {upgradedAt : Option Time} {code : Option String}
    (consistent : upgradedAt.isSome = (state == .upgraded)) (hcode : code.all isSafeReasonCode)
    (hdate : upgradedAt.all isDatetime) :
    Signable deps (acknowledge command manifestDigest imageDigest swapStrategy state upgradedAt code) ↔
      (∃ kid, deps.identity = .ok kid) ∧ isIdentifier (issuerOf deps) ∧
        isDigest manifestDigest ∧ isDigest imageDigest := by
  simp only [isUpgradeCommand, all_cons, all_nil, Bool.and_true, Bool.and_eq_true,
    decide_eq_true_eq] at verified
  have haccepted (time : Time) : isUpgradeAcknowledgement (payloadOf deps (acknowledge command
      manifestDigest imageDigest swapStrategy state upgradedAt code) time) ↔
        isIdentifier (issuerOf deps) ∧ isDigest manifestDigest ∧
          isDigest imageDigest := by
    simp [isUpgradeAcknowledgement, payloadOf, acknowledge, verified, consistent, hcode, hdate]
  constructor
  · intro h
    exact ⟨h.loaded, (haccepted 0).mp (h.accepted 0)⟩
  · rintro ⟨hloaded, hdigests⟩
    exact ⟨affine, hloaded, fun time ↦ (haccepted time).mpr hdigests⟩

theorem digests_of_verified (verified : isUpgradeCommand command) :
    isDigest command.targetManifestDigest ∧ isDigest command.targetImageDigest ∧
      isDigest command.previousManifestDigest ∧
        isDigest command.previousImageDigest := by
  simp only [isUpgradeCommand, all_cons, all_nil, Bool.and_true, Bool.and_eq_true] at verified
  simp [verified]

theorem digest_getD_iff {digest : Option String} {default : String}
    (hdefault : isDigest default) :
    isDigest (digest.getD default) ↔ digest.all isDigest := by
  cases digest with
  | none => simpa using hdefault
  | some digest => rfl

theorem acknowledgeable_iff :
    Acknowledgeable deps app ↔ (∃ kid, deps.identity = .ok kid) ∧
      isIdentifier (issuerOf deps) ∧ app.manifestDigest.all isDigest ∧
        isDigest app.imageDigest := by
  constructor
  · intro h
    exact ⟨h.loaded, h.issuer, h.manifest, h.image⟩
  · rintro ⟨loaded, issuer, manifest, image⟩
    exact ⟨loaded, issuer, manifest, image⟩

/-- Signing yields an accepted acknowledgement exactly of what can be signed. -/
theorem Signs.acknowledged_iff (h : Signs deps input w r w' calls) :
    (∃ signed, r.toOption = some signed ∧ isUpgradeAcknowledgement signed.payload) ↔
      Signable deps input := by
  obtain ⟨signed, time, rfl, hpayload, hsignable⟩ | ⟨e, rfl, hunsignable⟩ := h.outcome
  · refine iff_of_true ⟨signed, rfl, ?_⟩ hsignable
    rw [hpayload]
    exact hsignable.accepted time
  · refine iff_of_false ?_ hunsignable
    rintro ⟨_, h, -⟩
    cases h

/-- Signing a refusal over a record that has not changed. -/
theorem Refuses.acknowledged_iff (verified : isUpgradeCommand command)
    (affine : command.clusterId = deps.clusterId)
    (found : w.apps.docs.find? (isInstallation workspaceId runtimeInstallationId) = some app)
    (hstate : state ≠ .upgraded) (hcode : isSafeReasonCode errorCode)
    (h : Refuses deps workspaceId runtimeInstallationId command app state errorCode w r w' calls)
    (answered : ∀ event ∈ calls, IsStore event.1 → event.2.fault = .none) :
    (∃ signed, r.toOption = some signed ∧ isUpgradeAcknowledgement signed.payload) ↔
      Acknowledgeable deps app := by
  obtain ⟨-, -, hprevious, -⟩ := digests_of_verified verified
  have hsafe : (some errorCode).all isSafeReasonCode := hcode
  cases h with
  | unread fault => exact absurd (answered _ mem_cons_self trivial) fault
  | read fault signs =>
    have hrecord : refusalOf workspaceId runtimeInstallationId command app state errorCode w =
        acknowledge command (app.manifestDigest.getD command.previousManifestDigest) app.imageDigest
          (app.mcpLastSwapStrategy.getD .stopThenCreate) state none (some errorCode) := by
      rw [refusalOf, found, Option.getD_some]
    have hconsistent : (none : Option Time).isSome = (state == .upgraded) := by
      rw [Option.isSome_none, eq_comm, beq_eq_false_iff_ne]
      exact hstate
    rw [signs.acknowledged_iff, hrecord, signable_iff verified affine hconsistent hsafe rfl,
      digest_getD_iff hprevious, acknowledgeable_iff]

/-- Signing the success of an upgrade, whose record holds the digests of the command. -/
theorem success_signable_iff {applied : Upgraded} (verified : isUpgradeCommand command)
    (affine : command.clusterId = deps.clusterId)
    (found : w.apps.docs.find? (isInstallation workspaceId command.runtimeInstallationId) = some app)
    (dated : isDatetime app.updatedAt)
    (h : Upgrades databaseAnswers deps.deployment workspaceId
      command.toClusterUpgradeCommandPayloadV3 w (.ok applied) w' calls) :
    Signable deps (successOf command applied) ↔ Acknowledgeable deps app := by
  have hdigests := digests_of_verified verified
  have hsuccess : Carries command.toClusterUpgradeCommandPayloadV3 applied.app ∧
      isDatetime applied.app.updatedAt ∧
      app.manifestDigest.all isDigest ∧ isDigest app.imageDigest := by
    cases h with
    | unswapped apps plain unready refused repeated =>
      obtain ⟨hcarries, hfound⟩ := repeated applied rfl
      obtain rfl := some.inj (hfound.symm.trans found)
      refine ⟨hcarries, dated, ?_, ?_⟩
      · simp [hcarries.manifestDigest, hdigests]
      · simp [hcarries.imageDigest, hdigests]
    | swapped selects apps plain answered performs apps' unlocks =>
      obtain rfl := selects.ready.unique found
      obtain ⟨hcarries, hdate⟩ := carries_of_performs performs
      rw [selects.obeys] at hcarries
      refine ⟨hcarries, hdate, ?_, ?_⟩
      · simp [selects.ready.previousManifest, hdigests]
      · simp [selects.ready.previousImage, hdigests]
  obtain ⟨hcarries, hdate, hmanifest, himage⟩ := hsuccess
  have hshown : (some applied.app.updatedAt).all isDatetime := hdate
  rw [successOf, signable_iff verified affine rfl rfl hshown, acknowledgeable_iff,
    hcarries.manifestDigest, hcarries.imageDigest]
  simp [hmanifest, himage, hdigests]

theorem inspectionAnswered_of_inspected (h : Inspected deps workspaceId command w app) :
    InspectionAnswered deps workspaceId command w app := by
  obtain ⟨node, response, inspected, hnode, hresponse, -, hbody, -⟩ := h
  intro node' hnode'
  obtain rfl := some.inj (hnode.symm.trans hnode')
  exact ⟨response, hresponse, fun _ ↦ by rw [hbody]; rfl⟩

theorem stateOf_ne_upgraded (e : JsError) : stateOf e ≠ .upgraded := by
  unfold stateOf
  split
  · split
    · decide
    · decide
  · decide

theorem Replies.acknowledged_iff {acknowledgement : Option SignedAcknowledgement}
    (verified : isUpgradeCommand command) (affine : command.clusterId = deps.clusterId)
    (found : w.apps.docs.find? (isInstallation workspaceId command.runtimeInstallationId) = some app)
    (dated : isDatetime app.updatedAt)
    (h : Replies databaseAnswers deps workspaceId command.runtimeInstallationId command app w
      acknowledgement w' calls)
    (answered : ∀ event ∈ calls, IsStore event.1 → event.2.fault = .none) :
    (∃ signed, acknowledgement = some signed ∧ isUpgradeAcknowledgement signed.payload) ↔
      InspectionAnswered deps workspaceId command w app ∧ Acknowledgeable deps app := by
  cases h with
  | silent plain unread =>
    refine iff_of_false (fun ⟨_, h, _⟩ ↦ nomatch h) fun ⟨hinspection, _⟩ ↦ ?_
    obtain ⟨event, hevent, hstore, hfault⟩ | hunanswered := unread
    · exact hfault (answered event hevent hstore)
    · exact hunanswered hinspection
  | refused quiet plain inspected hinspection code refuses =>
    rw [refuses.acknowledged_iff verified affine (quiet.apps.symm ▸ found) (by decide) code
      fun event hevent ↦ answered event (mem_append_right _ hevent)]
    exact (and_iff_right hinspection).symm
  | @failed error r w₁ w₂ _ first middle last quiet plain _ inspected upgrades refuses =>
    have happs : w₂.apps = w.apps :=
      (apps_of_upgrades upgrades fun event hevent ↦ answered event (by simp [hevent])).trans quiet.apps
    have hcode : isSafeReasonCode (failureCode deps error) :=
      isSafeReasonCode_acknowledgedCode (isSafeCode_clusterMcpSafeReason (by decide))
    rw [refuses.acknowledged_iff verified affine (happs.symm ▸ found) (stateOf_ne_upgraded error) hcode
      fun event hevent ↦ answered event (by simp [hevent])]
    exact (and_iff_right (inspectionAnswered_of_inspected inspected)).symm
  | upgraded quiet plain _ inspected upgrades signs =>
    rw [signs.acknowledged_iff,
      success_signable_iff verified affine (quiet.apps.symm ▸ found) dated upgrades]
    exact (and_iff_right (inspectionAnswered_of_inspected inspected)).symm

/--
With a database that answers, a verified command for an existing runtime is acknowledged exactly
when the inspection is answered and the master can sign over the record.
-/
theorem verified_acknowledged_iff {r : Except JsError UpgradeReply}
    (verified : isUpgradeCommand command = true) (affine : command.clusterId = deps.clusterId)
    (found : w.apps.docs.find? (isInstallation workspaceId command.runtimeInstallationId) = some app)
    (dated : isDatetime app.updatedAt = true)
    (run : Executes (cluster databaseAnswers).traced
      (upgrade deps workspaceId command.runtimeInstallationId command) (w, []) (.ofExcept r)
      (w', calls)) :
    (∃ signed, acknowledgementOf r = some signed ∧
        isUpgradeAcknowledgement signed.payload = true) ↔
      InspectionAnswered deps workspaceId command w app ∧ Acknowledgeable deps app := by
  have htraces : Traces (cluster databaseAnswers) _ (upgrade deps workspaceId
      command.runtimeInstallationId command) w :=
    (upgrade_traces found).permitted (P := fun (c : Call) (x : Choice) ↦
      IsStore c → x.fault = .none) fun _ _ _ h ↦ h.1
  obtain ⟨hreplies, hanswered⟩ := htraces.post run
  exact hreplies.acknowledged_iff verified affine found dated hanswered

end

end UpgradeRoute

namespace Sample

open UpgradeRoute

def consumed : ConsumedUpgradeCommand :=
  { upgradeCommand with operationId := 0, workspaceId := "acme" }

theorem isDigest_digest {c : Char} (hc : isLowerHex c) : isDigest (digest c) := by
  have hchars : (digest c).toList = "sha256:".toList ++ replicate 64 c := by
    simp [digest]
  have hlength : "sha256:".toList.length = 7 := by decide
  simp only [isDigest, hchars, take_left' hlength, drop_left' hlength]
  simp [hc]

theorem isUpgradeCommand_consumed : isUpgradeCommand consumed := by
  have hdigest : isDigest (digest 'a') ∧ isDigest (digest 'b') ∧
      isDigest (digest 'c') ∧ isDigest (digest 'd') :=
    ⟨isDigest_digest rfl, isDigest_digest rfl, isDigest_digest rfl, isDigest_digest rfl⟩
  have hdiffers : digest 'c' ≠ digest 'a' ∧ digest 'd' ≠ digest 'b' := by decide +kernel
  have hhash : isArtifactHash "AAAAAAAAAAAAAAAAAAAAAAAAAAAAAAAAAAAAAAAAAAA" := by
    decide +kernel
  have hidentifiers : ["cluster", "acme", "deployment", "generation", "installation", "notes",
      "mcp"].all isIdentifier := by decide +kernel
  simpa [isUpgradeCommand, consumed, upgradeCommand, hdigest, hdiffers, hhash] using hidentifiers

/-- The agent finds the image that the command names. -/
def hubDeps : HubRouteDeps where
  deployment := deploymentDeps
  clusterId := "cluster"
  identity := .ok "key"
  signEs256Jws := fun _ ↦ "jws"
  toLowerCase := fun s ↦ String.ofList (s.toList.map Char.toLower)
  inspect := fun _ ↦ .ok ⟨200, some ⟨some (digest 'd'), some (digest 'c')⟩⟩
  jti := 0
  nonce := 0

/-- A running generation without replicas. -/
def unplaced : MasterApp := { upgradable with replicas := [] }

def unplacedWorld : World := world unplaced (by decide +kernel)

/-- The route, while every store answers and no agent does. -/
def handled (law : Law) (deps : HubRouteDeps) (w : World) :
    Except JsError UpgradeReply × World × List (Call × Choice) :=
  (cluster law).traced.run (fun _ _ ↦ {}) (upgrade deps "acme" consumed.runtimeInstallationId consumed) (w, [])

theorem executes_handled {law : Law} {deps : HubRouteDeps} {w : World}
    (lawful : ∀ c w', w'.clock = w.clock → law c {} w') :
    Executes (cluster law).traced (upgrade deps "acme" consumed.runtimeInstallationId consumed) (w, [])
      (.ofExcept (handled law deps w).1) ((handled law deps w).2.1, (handled law deps w).2.2) :=
  Machine.executes_run_under (I := fun s ↦ s.1.clock = w.clock) (fun c s hs ↦ lawful c s.1 hs)
    (fun c s hs ↦ by cases c <;> simpa [Machine.traced, cluster, respond] using hs) rfl

theorem foreignCodes_default (c : Call) (w : World) : foreignCodes c {} w := not_isSwapCode_none

theorem handled_unplaced :
    (acknowledgementOf (handled foreignCodes hubDeps unplacedWorld).1).map (·.payload.state) =
        some .failed ∧
      (handled foreignCodes hubDeps unplacedWorld).2.2.all (fun event ↦ !isRedeploy event.1) := by
  decide +kernel

/-- The reply to the command for the record without replicas. -/
theorem executes_handled_unplaced : ∃ reply signed,
    Executes (cluster foreignCodes).traced (upgrade hubDeps "acme" consumed.runtimeInstallationId consumed)
      (unplacedWorld, []) (.returned reply)
      ((handled foreignCodes hubDeps unplacedWorld).2.1, (handled foreignCodes hubDeps unplacedWorld).2.2) ∧
    reply.acknowledgement = some signed ∧ signed.payload.state = .failed := by
  have run : Executes (cluster foreignCodes).traced (upgrade hubDeps "acme" consumed.runtimeInstallationId consumed)
      (unplacedWorld, []) (.ofExcept (handled foreignCodes hubDeps unplacedWorld).1)
      ((handled foreignCodes hubDeps unplacedWorld).2.1, (handled foreignCodes hubDeps unplacedWorld).2.2) :=
    executes_handled fun c w _ ↦ foreignCodes_default c w
  obtain ⟨signed, hsigned, hstate⟩ := Option.map_eq_some_iff.mp handled_unplaced.1
  cases h : (handled foreignCodes hubDeps unplacedWorld).1 with
  | error e =>
    rw [h] at hsigned
    cases hsigned
  | ok reply =>
    rw [h] at hsigned run
    exact ⟨reply, signed, run, hsigned, hstate⟩

end Sample

namespace UpgradeRoute

/-- A record without replicas is acknowledged as FAILED though no redeploy was requested. -/
theorem acknowledged_failed_untouched : ∃ reply signed w' calls,
    Executes (cluster foreignCodes).traced
      (upgrade Sample.hubDeps "acme" Sample.consumed.runtimeInstallationId Sample.consumed)
      (Sample.unplacedWorld, []) (.returned reply) (w', calls) ∧
    isUpgradeCommand Sample.consumed = true ∧ reply.acknowledgement = some signed ∧
    signed.payload.state = .failed ∧ ¬ Redeployed calls := by
  obtain ⟨reply, signed, run, hsigned, hstate⟩ := Sample.executes_handled_unplaced
  refine ⟨reply, signed, (Sample.handled foreignCodes Sample.hubDeps Sample.unplacedWorld).2.1,
    (Sample.handled foreignCodes Sample.hubDeps Sample.unplacedWorld).2.2, run,
    Sample.isUpgradeCommand_consumed, hsigned, hstate, ?_⟩
  rintro ⟨event, hevent, hredeploy⟩
  have huntouched := List.all_eq_true.mp Sample.handled_unplaced.2 event hevent
  rw [hredeploy] at huntouched
  cases huntouched

theorem acknowledged_truthfully_iff_unplaced : ∃ reply signed w' calls,
    Executes (cluster foreignCodes).traced
      (upgrade Sample.hubDeps "acme" Sample.consumed.runtimeInstallationId Sample.consumed)
      (Sample.unplacedWorld, []) (.returned reply) (w', calls) ∧
    reply.acknowledgement = some signed ∧
    ∃ app, Sample.unplacedWorld.apps.docs.find?
        (isInstallation "acme" Sample.consumed.runtimeInstallationId) = some app ∧
      (Truthful Sample.consumed app.appId w' calls signed.payload.state ↔
        app.replicas ≠ [] ∨
          ¬ Attempted Sample.hubDeps "acme" Sample.consumed Sample.unplacedWorld app calls) := by
  obtain ⟨reply, signed, run, hsigned, -⟩ := Sample.executes_handled_unplaced
  exact ⟨reply, signed, (Sample.handled foreignCodes Sample.hubDeps Sample.unplacedWorld).2.1,
    (Sample.handled foreignCodes Sample.hubDeps Sample.unplacedWorld).2.2, run, hsigned,
    acknowledged_truthfully_iff run hsigned⟩

end UpgradeRoute

namespace Sample

open UpgradeRoute

/-- The inspection request rejects. -/
def unreachableDeps : HubRouteDeps :=
  { hubDeps with inspect := fun _ ↦ .error { message := "connect ECONNREFUSED" } }

theorem databaseAnswers_default (c : Call) (w : World) (h : w.clock = upgradableWorld.clock) :
    databaseAnswers c {} w := by
  refine ⟨fun _ ↦ rfl, fun _ ↦ ?_⟩
  rw [h]
  decide

theorem executes_upgradable (deps : HubRouteDeps) :
    Executes (cluster databaseAnswers).traced (upgrade deps "acme" consumed.runtimeInstallationId consumed)
      (upgradableWorld, []) (.ofExcept (handled databaseAnswers deps upgradableWorld).1)
      ((handled databaseAnswers deps upgradableWorld).2.1,
        (handled databaseAnswers deps upgradableWorld).2.2) :=
  executes_handled databaseAnswers_default

theorem consumed_found :
    upgradableWorld.apps.docs.find? (isInstallation "acme" consumed.runtimeInstallationId) =
      some upgradable :=
  upgradable_found

theorem acknowledgeable_unreachable : Acknowledgeable unreachableDeps upgradable := by
  have hdigests : upgradable.manifestDigest = some (digest 'a') ∧
      upgradable.imageDigest = digest 'b' := ⟨rfl, rfl⟩
  refine ⟨⟨_, rfl⟩, by decide +kernel, ?_, ?_⟩
  · rw [hdigests.1, Option.all_some]
    exact isDigest_digest rfl
  · exact isDigest_digest rfl

theorem handled_unreachable :
    (handled databaseAnswers unreachableDeps upgradableWorld).1.isOk = false := by
  decide +kernel

end Sample

namespace UpgradeRoute

/-- The inspection rejects, and the request of the Hub ends in an error without acknowledgement. -/
theorem unreachable_unacknowledged : ∃ e w' calls,
    Executes (cluster databaseAnswers).traced
      (upgrade Sample.unreachableDeps "acme" Sample.consumed.runtimeInstallationId Sample.consumed)
      (Sample.upgradableWorld, []) (.threw e) (w', calls) ∧
    isUpgradeCommand Sample.consumed = true ∧
    Sample.upgradableWorld.apps.docs.find?
      (isInstallation "acme" Sample.consumed.runtimeInstallationId) = some Sample.upgradable ∧
    Acknowledgeable Sample.unreachableDeps Sample.upgradable := by
  have herror := Sample.handled_unreachable
  have hthrew : ∃ e, (Sample.handled databaseAnswers Sample.unreachableDeps
      Sample.upgradableWorld).1 = .error e := by
    cases h : (Sample.handled databaseAnswers Sample.unreachableDeps Sample.upgradableWorld).1 with
    | error e => exact ⟨e, rfl⟩
    | ok reply =>
      rw [h] at herror
      cases herror
  obtain ⟨e, he⟩ := hthrew
  have run : Executes (cluster databaseAnswers).traced
      (upgrade Sample.unreachableDeps "acme" Sample.consumed.runtimeInstallationId Sample.consumed)
      (Sample.upgradableWorld, [])
      (.ofExcept (Sample.handled databaseAnswers Sample.unreachableDeps Sample.upgradableWorld).1)
      ((Sample.handled databaseAnswers Sample.unreachableDeps Sample.upgradableWorld).2.1,
        (Sample.handled databaseAnswers Sample.unreachableDeps Sample.upgradableWorld).2.2) :=
    Sample.executes_upgradable _
  rw [he] at run
  exact ⟨e, (Sample.handled databaseAnswers Sample.unreachableDeps Sample.upgradableWorld).2.1,
    (Sample.handled databaseAnswers Sample.unreachableDeps Sample.upgradableWorld).2.2, run,
    Sample.isUpgradeCommand_consumed, Sample.consumed_found, Sample.acknowledgeable_unreachable⟩

theorem verified_acknowledged_iff_upgradable :
    (∃ signed, acknowledgementOf
        (Sample.handled databaseAnswers Sample.hubDeps Sample.upgradableWorld).1 = some signed ∧
      isUpgradeAcknowledgement signed.payload = true) ↔
      InspectionAnswered Sample.hubDeps "acme" Sample.consumed Sample.upgradableWorld
        Sample.upgradable ∧ Acknowledgeable Sample.hubDeps Sample.upgradable :=
  verified_acknowledged_iff Sample.isUpgradeCommand_consumed rfl Sample.consumed_found (by decide)
    (Sample.executes_upgradable Sample.hubDeps)

end UpgradeRoute

end PrivosCluster
