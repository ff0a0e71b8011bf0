import PrivosCluster.Master.UpgradeRollback
import PrivosCluster.Master.UpgradeRoute

/-!
# What the upgrade route acknowledges

The state of an acknowledgement is read off the code of the error the upgrade ended with. The
route signs whatever happened, except when the inspection of the target image is not answered.
-/

namespace PrivosCluster

open AsyncProgram DocumentStore RuntimeSwap Schema List Option

variable {reply : SignedAcknowledgement → UpgradeReply} {first : List (Call × Choice)}

namespace UpgradeRoute

/-! ## Error codes -/

theorem isUpper_toUpper_of_isLower {c : Char} (h : c.isLower) : c.toUpper.isUpper := by
  have hlower : 97 ≤ c.val.toNat ∧ c.val.toNat ≤ 122 := by
    have hbounds := (Bool.and_eq_true _ _).mp h
    exact ⟨of_decide_eq_true hbounds.1, of_decide_eq_true hbounds.2⟩
  have hupper : c.toUpper.val = c.val + ('A'.val - 'a'.val) := by
    unfold Char.toUpper
    rw [dif_pos (by simpa [UInt32.le_iff_toNat_le] using hlower)]
  have hval : c.toUpper.val.toNat = c.val.toNat - 32 := by
    have hshift : ('A'.val - 'a'.val).toNat = 4294967264 := by decide
    rw [hupper, UInt32.toNat_add]
    omega
  have hbounds : 65 ≤ c.toUpper.val.toNat ∧ c.toUpper.val.toNat ≤ 90 := by omega
  exact decide_eq_true hbounds

/-- A code that is safe to log becomes one that is safe to sign. -/
theorem isSafeReasonCode_acknowledgedCode {reason : String} (h : isSafeCode reason) :
    isSafeReasonCode (acknowledgedCode reason) := by
  unfold isSafeCode at h
  cases hchars : reason.toList with
  | nil => simp [hchars] at h
  | cons first rest =>
    simp only [hchars, Bool.and_eq_true, decide_eq_true_eq] at h
    obtain ⟨⟨⟨hfirst, hnonempty⟩, hlength⟩, -⟩ := h
    have hupper := isUpper_toUpper_of_isLower hfirst
    have hcode : (acknowledgedCode reason).toList =
        first.toUpper :: (rest.map Char.toUpper).map fun c ↦ if isReasonChar c then c else '_' := by
      simp [acknowledgedCode, String.toUpper, hchars, isReasonChar, hupper]
    unfold isSafeReasonCode
    rw [hcode]
    have hrest : ((rest.map Char.toUpper).map fun c ↦ if isReasonChar c then c else '_').all
        isReasonChar := by
      rw [List.all_eq_true]
      intro c hc
      obtain ⟨c', -, rfl⟩ := List.mem_map.mp hc
      split
      next hreason => exact hreason
      · rfl
    simp only [hupper, hrest, Bool.and_true, Bool.true_and, length_map, Bool.and_eq_true,
      decide_eq_true_eq]
    omega

theorem isSafeCode_clusterMcpSafeReason {toLowerCase : String → String} {error : JsError}
    {fallback : String} (h : isSafeCode fallback) :
    isSafeCode (clusterMcpSafeReason toLowerCase error fallback) := by
  unfold clusterMcpSafeReason
  dsimp only
  split
  next hsafe => exact hsafe
  · exact h

/-! ## Signing -/

/-- The master can sign this acknowledgement: its schema accepts it at any time. -/
structure Signable (deps : HubRouteDeps) (input : UpgradeAcknowledgementInput) : Prop where
  cluster : input.clusterId = deps.clusterId
  loaded : ∃ kid, deps.identity = .ok kid
  accepted : ∀ time, isUpgradeAcknowledgement (payloadOf deps input time) = true

/-- What signing does: it asks for the time, and succeeds on what it can sign. -/
structure Signs (deps : HubRouteDeps) (input : UpgradeAcknowledgementInput) (w : World)
    (r : Except JsError SignedAcknowledgement) (w' : World) (calls : List (Call × Choice)) : Prop where
  apps : w'.apps = w.apps
  clocked : ∀ event ∈ calls, event.1 = .service .now
  outcome : (∃ signed time, r = .ok signed ∧ signed.payload = payloadOf deps input time ∧
      Signable deps input) ∨
    ∃ e, r = .error e ∧ ¬ Signable deps input

/-- The call that looks the record of an installation up. -/
def installationCall (workspaceId runtimeInstallationId : String) : Call :=
  .apps (.findOne (isInstallation workspaceId runtimeInstallationId))

/-- The record the refusal of a command is signed over. -/
def refusalOf (workspaceId runtimeInstallationId : String) (command : ConsumedUpgradeCommand)
    (app : MasterApp) (state : UpgradeState) (errorCode : String) (w : World) :
    UpgradeAcknowledgementInput :=
  let current := (w.apps.docs.find? (isInstallation workspaceId runtimeInstallationId)).getD app
  acknowledge command (current.manifestDigest.getD command.previousManifestDigest)
    current.imageDigest (current.mcpLastSwapStrategy.getD .stopThenCreate) state none (some errorCode)

/-- Signing a refusal: the record is read again, and the read may fail. -/
inductive Refuses (deps : HubRouteDeps) (workspaceId runtimeInstallationId : String)
    (command : ConsumedUpgradeCommand) (app : MasterApp) (state : UpgradeState) (errorCode : String)
    (w : World) : Except JsError SignedAcknowledgement → World → List (Call × Choice) → Prop where
  | unread {x : Choice} (fault : x.fault ≠ .none) :
      Refuses deps workspaceId runtimeInstallationId command app state errorCode w (.error x.error) w
        [(installationCall workspaceId runtimeInstallationId, x)]
  | read {x : Choice} {r : Except JsError SignedAcknowledgement} {w' : World}
      {calls : List (Call × Choice)} (fault : x.fault = .none)
      (signs : Signs deps
        (refusalOf workspaceId runtimeInstallationId command app state errorCode w) w r w' calls) :
      Refuses deps workspaceId runtimeInstallationId command app state errorCode w r w'
        ((installationCall workspaceId runtimeInstallationId, x) :: calls)

section

variable {law : Law} {deps : HubRouteDeps} {workspaceId runtimeInstallationId : String}
  {command : ConsumedUpgradeCommand} {app : MasterApp} {state : UpgradeState} {errorCode : String}
  {input : UpgradeAcknowledgementInput} {w : World}

theorem signUpgradeAcknowledgement_traces :
    Traces (cluster law) (Signs deps input w) (signUpgradeAcknowledgement deps input) w := by
  refine Traces.guard (fun hcluster ↦ ?_) fun hcluster ↦ ?_
  · exact ⟨rfl, fun _ h ↦ (nomatch h), .inr ⟨_, rfl, fun h ↦ hcluster h.cluster⟩⟩
  refine Traces.ofExcept_bind (fun e he ↦ ?_) fun kid hkid ↦ ?_
  · refine ⟨rfl, fun _ h ↦ (nomatch h), .inr ⟨_, rfl, fun h ↦ ?_⟩⟩
    obtain ⟨kid, hkid⟩ := h.loaded
    rw [hkid] at he
    cases he
  refine traces_now fun time x w₁ _ happs ↦ ?_
  refine Traces.guard (fun hinvalid ↦ ?_) fun hvalid ↦ ?_
  · refine ⟨happs, by simp, .inr ⟨_, rfl, fun h ↦ ?_⟩⟩
    rw [h.accepted time] at hinvalid
    cases hinvalid
  · refine Traces.pure ⟨happs, by simp, .inl ⟨_, time, rfl, rfl, ?_⟩⟩
    refine ⟨Classical.not_not.mp hcluster, ⟨kid, hkid⟩, fun time' ↦ ?_⟩
    exact (Bool.not_eq_false _).mp hvalid

theorem signRefusalAcknowledgement_traces :
    Traces (cluster law) (Refuses deps workspaceId runtimeInstallationId command app state errorCode w)
      (signRefusalAcknowledgement deps workspaceId runtimeInstallationId command app state errorCode)
      w :=
  traces_findOneApp (isInstallation workspaceId runtimeInstallationId)
    (fun _ hfault ↦ signUpgradeAcknowledgement_traces.imp fun _ _ _ hsigns ↦ .read hfault hsigns)
    fun _ hfault ↦ .unread hfault

end

/-! ## The route -/

/-- The agent that inspects the image, if there is one, answers with something to read. -/
def InspectionAnswered (deps : HubRouteDeps) (workspaceId : String) (command : ConsumedUpgradeCommand)
    (w : World) (app : MasterApp) : Prop :=
  ∀ node, w.nodes.docs.find? (fun node ↦ node.status == .active) = some node →
    ∃ response, deps.inspect ⟨node.nodeId, workspaceId, withoutPin app.image,
        command.targetImageDigest⟩ = .ok response ∧
      (response.status < 300 → response.body.isSome)

/-- The image has been inspected, and is the one the command names. -/
def Inspected (deps : HubRouteDeps) (workspaceId : String) (command : ConsumedUpgradeCommand)
    (w : World) (app : MasterApp) : Prop :=
  ∃ node response inspected,
    w.nodes.docs.find? (fun node ↦ node.status == .active) = some node ∧
      deps.inspect ⟨node.nodeId, workspaceId, withoutPin app.image, command.targetImageDigest⟩ =
        .ok response ∧
      response.status < 300 ∧ response.body = some inspected ∧
      inspected.imageDigest = some command.targetImageDigest ∧
      inspected.manifestDigest = some command.targetManifestDigest

/-- A call that the database answers. -/
def IsStore : Call → Prop
  | .request _ | .service _ | .acquire _ | .release _ => False
  | _ => True

def acknowledgementOf (r : Except JsError UpgradeReply) : Option SignedAcknowledgement :=
  r.toOption.bind (·.acknowledgement)

def failureCode (deps : HubRouteDeps) (error : JsError) : String :=
  acknowledgedCode (clusterMcpSafeReason deps.toLowerCase error "upgrade_failed")

/-- What is signed over an upgrade that went through. -/
def successOf (command : ConsumedUpgradeCommand) (applied : Upgraded) : UpgradeAcknowledgementInput :=
  acknowledge command (applied.app.manifestDigest.getD command.targetManifestDigest)
    applied.app.imageDigest applied.swapStrategy .upgraded (some applied.app.updatedAt) none

/-- A run of the route for a record: what it signed, and the calls it made. -/
inductive Replies (law : Law) (deps : HubRouteDeps) (workspaceId runtimeInstallationId : String)
    (command : ConsumedUpgradeCommand) (app : MasterApp) (w : World) :
    Option SignedAcknowledgement → World → List (Call × Choice) → Prop where
  | silent {w' : World} {calls : List (Call × Choice)} (plain : ∀ event ∈ calls, event.1.IsPlain)
      (unread : (∃ event ∈ calls, IsStore event.1 ∧ event.2.fault ≠ .none) ∨
        ¬ InspectionAnswered deps workspaceId command w app) :
      Replies law deps workspaceId runtimeInstallationId command app w none w' calls
  | refused {r : Except JsError SignedAcknowledgement} {w₁ w' : World}
      {first calls : List (Call × Choice)} {errorCode : String} (quiet : Quiet w w₁)
      (plain : ∀ event ∈ first, event.1.IsPlain)
      (inspected : ¬ Inspected deps workspaceId command w app)
      (answered : InspectionAnswered deps workspaceId command w app)
      (code : isSafeReasonCode errorCode = true)
      (refuses : Refuses deps workspaceId runtimeInstallationId command app .refused errorCode w₁ r w'
        calls) :
      Replies law deps workspaceId runtimeInstallationId command app w r.toOption w' (first ++ calls)
  | failed {error : JsError} {r : Except JsError SignedAcknowledgement} {w₁ w₂ w' : World}
      {first middle last : List (Call × Choice)} (quiet : Quiet w w₁)
      (plain : ∀ event ∈ first, event.1.IsPlain) (answered : ∀ event ∈ first, ¬ Unanswered event)
      (inspected : Inspected deps workspaceId command w app)
      (upgrades : Upgrades law deps.deployment workspaceId command.toClusterUpgradeCommandPayloadV3
        w₁ (.error error) w₂ middle)
      (refuses : Refuses deps workspaceId runtimeInstallationId command app (stateOf error)
        (failureCode deps error) w₂ r w' last) :
      Replies law deps workspaceId runtimeInstallationId command app w r.toOption w'
        (first ++ (middle ++ last))
  | upgraded {applied : Upgraded} {r : Except JsError SignedAcknowledgement} {w₁ w₂ w' : World}
      {first middle last : List (Call × Choice)} (quiet : Quiet w w₁)
      (plain : ∀ event ∈ first, event.1.IsPlain) (answered : ∀ event ∈ first, ¬ Unanswered event)
      (inspected : Inspected deps workspaceId command w app)
      (upgrades : Upgrades law deps.deployment workspaceId command.toClusterUpgradeCommandPayloadV3
        w₁ (.ok applied) w₂ middle)
      (signs : Signs deps (successOf command applied) w₂ r w' last) :
      Replies law deps workspaceId runtimeInstallationId command app w r.toOption w'
        (first ++ (middle ++ last))

section

variable {law : Law} {deps : HubRouteDeps} {workspaceId runtimeInstallationId : String}
  {command : ConsumedUpgradeCommand} {app : MasterApp} {w : World}

/-- The reply of a signed acknowledgement carries it. -/
theorem traces_reply {p : Async SignedAcknowledgement}
    {R : Except JsError SignedAcknowledgement → World → List (Call × Choice) → Prop}
    {Q : Option SignedAcknowledgement → World → List (Call × Choice) → Prop}
    (hreply : ∀ signed, (reply signed).acknowledgement = some signed)
    (hp : Traces (cluster law) R p w) (hQ : ∀ r w' calls, R r w' calls → Q r.toOption w' calls) :
    Traces (cluster law) (fun r w' calls ↦ Q (acknowledgementOf r) w' calls)
      (p >>= fun signed ↦ .pure (reply signed)) w := by
  refine hp.bind (fun signed w' calls h ↦ ?_) fun e w' calls h ↦ hQ _ _ _ h
  refine Traces.pure ?_
  have hsigned : acknowledgementOf (.ok (reply signed)) = some signed := hreply signed
  rw [append_nil, hsigned]
  exact hQ _ _ _ h

theorem applyCommand_traces {w₀ : World} (hquiet : Quiet w₀ w)
    (hplain : ∀ event ∈ first, event.1.IsPlain) (hanswered : ∀ event ∈ first, ¬ Unanswered event)
    (hinspected : Inspected deps workspaceId command w₀ app) :
    Traces (cluster law) (fun r w' calls ↦ Replies law deps workspaceId runtimeInstallationId command
        app w₀ (acknowledgementOf r) w' (first ++ calls))
      (applyCommand deps workspaceId runtimeInstallationId command app) w := by
  refine (Traces.settle (Q := fun (r : Except JsError (Except JsError Upgraded)) w' calls ↦
      ∃ applied, r = .ok applied ∧ Upgrades law deps.deployment workspaceId
        command.toClusterUpgradeCommandPayloadV3 w applied w' calls)
    (upgradeMcpV3_traces.imp fun r w' calls h ↦ ⟨r, rfl, h⟩)).bind ?_ ?_
  · rintro applied w₁ middle ⟨_, ⟨⟩, hupgrades⟩
    cases applied with
    | error error =>
      exact traces_reply (Q := fun acknowledgement w' last ↦ Replies law deps workspaceId
          runtimeInstallationId command app w₀ acknowledgement w' (first ++ (middle ++ last)))
        (fun _ ↦ rfl) signRefusalAcknowledgement_traces fun r w' last hrefuses ↦
          .failed hquiet hplain hanswered hinspected hupgrades hrefuses
    | ok applied =>
      exact traces_reply (Q := fun acknowledgement w' last ↦ Replies law deps workspaceId
          runtimeInstallationId command app w₀ acknowledgement w' (first ++ (middle ++ last)))
        (fun _ ↦ rfl) signUpgradeAcknowledgement_traces fun r w' last hsigns ↦
          .upgraded hquiet hplain hanswered hinspected hupgrades hsigns
  · rintro e w₁ middle ⟨_, h, -⟩
    cases h

theorem traces_refuse {errorCode : String} {w₀ : World}
    (hreply : ∀ signed, (reply signed).acknowledgement = some signed) (hquiet : Quiet w₀ w)
    (hplain : ∀ event ∈ first, event.1.IsPlain)
    (hinspected : ¬ Inspected deps workspaceId command w₀ app)
    (hanswered : InspectionAnswered deps workspaceId command w₀ app)
    (hcode : isSafeReasonCode errorCode) :
    Traces (cluster law) (fun r w' calls ↦ Replies law deps workspaceId runtimeInstallationId command
        app w₀ (acknowledgementOf r) w' (first ++ calls))
      (signRefusalAcknowledgement deps workspaceId runtimeInstallationId command app .refused
        errorCode >>= fun signed ↦ .pure (reply signed)) w :=
  traces_reply (Q := fun acknowledgement w' last ↦ Replies law deps workspaceId
      runtimeInstallationId command app w₀ acknowledgement w' (first ++ last))
    hreply signRefusalAcknowledgement_traces fun _ _ _ hrefuses ↦
      .refused hquiet hplain hinspected hanswered hcode hrefuses

/-- Looking up a node before going on. -/
theorem traces_findOneNode {α : Type} (filter : MasterNode → Bool)
    {f : Option MasterNode → Async α}
    {Q : Except JsError α → World → List (Call × Choice) → Prop}
    (hok : ∀ x : Choice, x.fault = .none → Traces (cluster law)
      (fun r w' calls ↦ Q r w' ((.nodes (.findOne filter), x) :: calls))
      (f (w.nodes.docs.find? filter)) w)
    (herror : ∀ x : Choice, x.fault ≠ .none →
      Q (.error x.error) w [(.nodes (.findOne filter), x)]) :
    Traces (cluster law) Q (awaitCall (.nodes (.findOne filter)) >>= f) w := by
  refine Traces.bind (R := fun (r : Except JsError (Option MasterNode)) w' calls ↦
    ∃ x, calls = [((.nodes (.findOne filter) : Call), x)] ∧ w' = w ∧
      r = if x.fault = .none then .ok (w.nodes.docs.find? filter) else .error x.error)
    (traces_awaitCall (.nodes (.findOne filter)) fun x _ ↦ ⟨x, rfl, ?_, ?_⟩) ?_ ?_
  · simp only [respond, serveStore_findOne]
  · simp only [respond, serveStore_findOne]
  · rintro found w' calls ⟨x, rfl, rfl, hfound⟩
    split at hfound
    next hfault =>
      rw [Except.ok.inj hfound]
      exact hok x hfault
    next => cases hfound
  · rintro e w' calls ⟨x, rfl, rfl, hfound⟩
    split at hfound
    next => cases hfound
    next hfault =>
      rw [Except.error.inj hfound]
      exact herror x hfault

theorem upgrade_traces
    (hfound : w.apps.docs.find? (isInstallation workspaceId runtimeInstallationId) = some app) :
    Traces (cluster law) (fun r w' calls ↦ Replies law deps workspaceId runtimeInstallationId command
        app w (acknowledgementOf r) w' calls)
      (upgrade deps workspaceId runtimeInstallationId command) w := by
  refine traces_findOneApp (isInstallation workspaceId runtimeInstallationId)
    (fun x hfault ↦ ?_) fun x hfault ↦ .silent (by simp [Call.IsPlain, Operation.IsRead])
      (.inl ⟨_, mem_singleton_self _, trivial, hfault⟩)
  rw [hfound]
  refine traces_findOneNode _ (fun x' hfault' ↦ ?_) fun x' hfault' ↦ .silent
    (by simp [Call.IsPlain, Operation.IsRead]) (.inl ⟨_, mem_cons_of_mem _
      (mem_singleton_self _), trivial, hfault'⟩)
  have hfirst : ∀ event ∈ [(installationCall workspaceId runtimeInstallationId, x),
      (.nodes (.findOne fun node ↦ node.status == .active), x')],
      event.1.IsPlain ∧ ¬ Unanswered event := by
    simp [installationCall, Call.IsPlain, Operation.IsRead, Unanswered, hfault, hfault']
  have hplain := fun event hevent ↦ (hfirst event hevent).1
  cases hnode : w.nodes.docs.find? fun node ↦ node.status == .active with
  | none =>
    refine traces_refuse (fun _ ↦ rfl) (Quiet.refl w) hplain ?_ ?_ (by decide)
    · rintro ⟨node, _, _, hnode', -⟩
      rw [hnode] at hnode'
      cases hnode'
    · intro node hnode'
      rw [hnode] at hnode'
      cases hnode'
  | some node =>
    refine Traces.ofExcept_bind (fun e he ↦ ?_) fun response hresponse ↦ ?_
    · refine .silent hplain (.inr fun hanswered ↦ ?_)
      obtain ⟨response, hresponse, -⟩ := hanswered node hnode
      rw [hresponse] at he
      cases he
    have hunique {response' : InspectResponse} (h : deps.inspect ⟨node.nodeId, workspaceId,
        withoutPin app.image, command.targetImageDigest⟩ = .ok response') : response' = response :=
      Except.ok.inj (h.symm.trans hresponse)
    split
    next hstatus =>
      refine traces_refuse (fun _ ↦ rfl) (Quiet.refl w) hplain ?_ ?_ (by decide)
      · rintro ⟨node', response', _, hnode', hresponse', haccepted, -⟩
        obtain rfl := some.inj (hnode.symm.trans hnode')
        obtain rfl := hunique hresponse'
        omega
      · intro node' hnode'
        obtain rfl := some.inj (hnode.symm.trans hnode')
        exact ⟨response, hresponse, fun h ↦ absurd h (by omega)⟩
    next hstatus =>
      have haccepted : response.status < 300 := by omega
      cases hbody : response.body with
      | none =>
        refine .silent hplain (.inr fun hanswered ↦ ?_)
        obtain ⟨response', hresponse', hread⟩ := hanswered node hnode
        obtain rfl := hunique hresponse'
        have hsome := hread haccepted
        rw [hbody] at hsome
        cases hsome
      | some inspected =>
        have hanswered : InspectionAnswered deps workspaceId command w app := by
          intro node' hnode'
          obtain rfl := some.inj (hnode.symm.trans hnode')
          exact ⟨response, hresponse, fun _ ↦ by rw [hbody]; rfl⟩
        dsimp only
        split
        next hmismatch =>
          refine traces_refuse (fun _ ↦ rfl) (Quiet.refl w) hplain ?_ hanswered (by decide)
          rintro ⟨node', response', inspected', hnode', hresponse', -, hbody', himage, hmanifest⟩
          obtain rfl := some.inj (hnode.symm.trans hnode')
          obtain rfl := hunique hresponse'
          obtain rfl := some.inj (hbody.symm.trans hbody')
          exact hmismatch.elim (· himage) (· hmanifest)
        next hmatch =>
          refine applyCommand_traces (Quiet.refl w) hplain (fun event hevent ↦ (hfirst event hevent).2) ?_
          exact ⟨node, response, inspected, hnode, hresponse, haccepted, hbody,
            Classical.not_not.mp fun h ↦ hmatch (.inl h), Classical.not_not.mp fun h ↦ hmatch (.inr h)⟩

end

end UpgradeRoute

end PrivosCluster
