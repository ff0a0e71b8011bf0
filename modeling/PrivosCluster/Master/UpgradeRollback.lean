import PrivosCluster.Master.RuntimeLabels

/-!
# Ways back from a failed upgrade

A rolled back upgrade has put every container back on the previous digests, each by its agent or
by a request of the master. Both ways write the authorization epoch of the command into the
labels.
-/

namespace PrivosCluster

open AsyncProgram DocumentStore List Option

variable {back done : List (Call × Choice)} {failed : AppReplica} {x : Choice}

namespace RuntimeSwap

variable {unknown : Call × Choice → Option RuntimeLabels} {labels : FleetLabels} {swap : Swap}
  {w w' : World} {calls : List (Call × Choice)} {n i : String}

theorem no_request_of_isPlain (h : ∀ event ∈ calls, event.1.IsPlain) :
    ∀ event ∈ calls, ∀ sent, event.1 ≠ .request sent := by
  intro event hevent sent hsent
  have hplain := h event hevent
  rw [hsent] at hplain
  exact hplain

theorem no_request_of_release {workspaceId : String}
    (h : ∀ event ∈ calls, event.1 = .release workspaceId) :
    ∀ event ∈ calls, ∀ sent, event.1 ≠ .request sent := by
  intro event hevent sent hsent
  rw [h event hevent] at hsent
  cases hsent

/-- The requests of a swap that was rolled back. -/
structure RolledBack (swap : Swap) (replicas : List AppReplica) (failed : AppReplica) (x : Choice)
    (done back : List (Call × Choice)) : Prop where
  swapped : done.map (·.1) = replicas.map (forwardCall swap)
  accepted : ∀ event ∈ done, confirmed event.2 = true
  restored : ∃ response, x.answer = some response ∧ Restored response
  reverted : back.map (·.1) = replicas.map (revertCall swap)
  confirmed : ∀ event ∈ back, confirmed event.2 = true

theorem Performs.rolledBack {e : JsError} (h : Performs law swap w (.error e) w' calls)
    (hrolledBack : e.rolledBack = some true) :
    ∃ replicas failed x done back,
      calls = done ++ [(forwardCall swap failed, x)] ++ back ∧
        RolledBack swap replicas failed x done back := by
  cases h with
  | @reverted forward concluding back succeeded failure reason w₁ w₂ _ apps forwards concludes
      reverts apps' =>
    simp only [upgradeError, Option.some.injEq, Bool.and_eq_true, Bool.or_eq_true,
      List.all_eq_true, List.mem_map, beq_iff_eq] at hrolledBack
    obtain ⟨hconfirmed, hreason⟩ := hrolledBack
    cases concludes with
    | @failed error recovered hfailure =>
      obtain ⟨done, last, rfl, hdone, hdoneConfirmed, hlast⟩ := forwards.split
      obtain rfl : failure = some (error, recovered) := hfailure
      obtain ⟨failed, x, rfl, hfailed⟩ := hlast
      have hrecovered : recovered = some true := by simpa using hreason
      refine ⟨succeeded.map (·.replica), failed, x, done, back, by simp, hdone, hdoneConfirmed,
        hfailed.restored hrecovered, ?_, fun event hevent ↦ ?_⟩
      · rw [reverts, List.map_map]
        rfl
      · exact hconfirmed _ ⟨event, hevent, rfl⟩
    | inconsistent => simp at hreason
    | unwritten => simp at hreason

/-- Swapped containers come back with the epoch of the command, and so does a restored one. -/
theorem RolledBack.labels_apply {replicas : List AppReplica}
    (h : RolledBack swap replicas failed x done back) :
    relabelled unknown (done ++ [(forwardCall swap failed, x)] ++ back) labels n i =
      if replicas.any (isAt n i) then
        some (swappedTo swap swap.command.previousImageDigest swap.command.previousManifestDigest)
      else if isAt n i failed then
        (labels n i).map fun old ↦
          { old with authorizationEpoch := swap.command.resultingAuthorizationEpoch }
      else labels n i := by
  rw [relabelled_append, relabelled_append, relabelled_confirmed h.reverted h.confirmed]
  split
  · rfl
  next hmiss =>
    obtain ⟨response, hanswer, hrefused, hrecovered⟩ := h.restored
    have hdone : relabelled unknown done labels n i = labels n i := by
      rw [relabelled_confirmed h.swapped h.accepted, if_neg hmiss]
    rw [relabelled_singleton, forwardCall, relabel_redeployCall, hdone]
    by_cases hat : isAt n i failed
    · obtain ⟨rfl, rfl⟩ := isAt_iff.mp hat
      rw [if_pos ⟨rfl, rfl⟩, if_pos hat, hanswer, redeployContainer, if_neg (by omega), hrecovered]
      rfl
    · rw [if_neg hat, if_neg fun h ↦ hat (isAt_iff.mpr ⟨h.1.symm, h.2.symm⟩)]

theorem RolledBack.answered_iff {replicas : List AppReplica}
    (h : RolledBack swap replicas failed x done back) :
    (Answered (done ++ [(forwardCall swap failed, x)] ++ back) n i Accepted ↔
        replicas.any (isAt n i)) ∧
      (Answered (done ++ [(forwardCall swap failed, x)] ++ back) n i Restored ↔
        isAt n i failed) := by
  obtain ⟨response, hanswer, hrefused, hrecovered⟩ := h.restored
  have hdone := answered_confirmed (n := n) (i := i) h.swapped h.accepted
  have hback := answered_confirmed (n := n) (i := i) h.reverted h.confirmed
  have hnot : ¬ ∃ response, x.answer = some response ∧ Accepted response := by
    rintro ⟨response', hanswer', haccepted⟩
    obtain rfl := some.inj (hanswer.symm.trans hanswer')
    exact absurd haccepted (Nat.not_lt_of_le hrefused)
  rw [answered_append, answered_append, answered_append, answered_append, forwardCall,
    answered_redeployCall, answered_redeployCall, hdone.1, hback.1]
  constructor
  · simp [hnot]
  · simp only [hdone.2, hback.2, false_or, or_false, and_iff_left_iff_imp]
    exact fun _ ↦ ⟨response, hanswer, hrefused, hrecovered⟩

/-- When a container that was swapped or restored is as it was. -/
theorem restores_iff {swapped restored : Bool} {previous : RuntimeLabels} {epoch : Nat}
    {old : Option RuntimeLabels} (hprevious : previous.authorizationEpoch = epoch) :
    (if swapped then some previous
      else if restored then old.map fun labels ↦ { labels with authorizationEpoch := epoch }
      else old) = old ↔
      (swapped → old = some previous) ∧
        (restored → ∀ labels, old = some labels → labels.authorizationEpoch = epoch) := by
  cases swapped with
  | true =>
    refine ⟨fun h ↦ ⟨fun _ ↦ h.symm, fun _ labels hlabels ↦ ?_⟩, fun h ↦ (h.1 rfl).symm⟩
    rw [hlabels] at h
    rw [← some.inj h, hprevious]
  | false =>
    cases restored with
    | false => simp
    | true =>
      cases old with
      | none => simp
      | some labels =>
        obtain ⟨image, manifest, old⟩ := labels
        simp [eq_comm]

/--
An upgrade that reports ROLLED_BACK has left the labels of every replica as they were exactly when
each container it swapped carried the previous digests and the resulting epoch before, and each
container an agent restored carried the resulting epoch.
-/
theorem rolled_back_restores_iff {law : Law} {deps : DeploymentDeps} {workspaceId : String}
    {command : ClusterUpgradeCommandPayloadV3} {app : MasterApp} {before : FleetLabels} {e : JsError}
    (run : Executes (cluster law).traced (upgradeMcpV3 deps workspaceId command) (w, []) (.threw e)
      (w', calls))
    (rolledBack : e.rolledBack = some true) :
    (∀ replica ∈ app.replicas,
        relabelled unknown calls before replica.nodeId replica.containerId =
          before replica.nodeId replica.containerId) ↔
      ∀ replica ∈ app.replicas,
        (Answered calls replica.nodeId replica.containerId Accepted →
          before replica.nodeId replica.containerId =
            some ⟨command.previousImageDigest, command.previousManifestDigest,
              command.resultingAuthorizationEpoch⟩) ∧
        (Answered calls replica.nodeId replica.containerId Restored →
          ∀ labels, before replica.nodeId replica.containerId = some labels →
            labels.authorizationEpoch = command.resultingAuthorizationEpoch) := by
  have hupgrades : Upgrades law deps workspaceId command w (.error e) w' calls :=
    upgradeMcpV3_traces.post (r := .error e) run
  cases hupgrades with
  | unswapped apps plain =>
    have hquiet := no_request_of_isPlain plain
    rw [relabelled_of_no_request hquiet]
    exact iff_of_true (fun _ _ ↦ rfl) fun _ _ ↦
      ⟨fun h ↦ absurd h (not_answered_of_no_request hquiet),
        fun h ↦ absurd h (not_answered_of_no_request hquiet)⟩
  | @swapped swap _ _ _ _ first middle last selects apps plain answered performs apps' unlocks =>
    obtain ⟨replicas, failed, x, done, back, rfl, hrolled⟩ := performs.rolledBack rolledBack
    have hfirst := no_request_of_isPlain plain
    have hlast := no_request_of_release unlocks
    refine forall₂_congr fun replica _ ↦ ?_
    have hanswered {P : AgentResponse → Prop} {n i : String} :
        Answered (first ++ (done ++ [(forwardCall swap failed, x)] ++ back) ++ last) n i P ↔
          Answered (done ++ [(forwardCall swap failed, x)] ++ back) n i P := by
      rw [answered_append, answered_append, or_iff_left (not_answered_of_no_request hlast),
        or_iff_right (not_answered_of_no_request hfirst)]
    rw [hanswered, hanswered, hrolled.answered_iff.1, hrolled.answered_iff.2, relabelled_append,
      relabelled_append, relabelled_of_no_request hfirst, relabelled_of_no_request hlast,
      hrolled.labels_apply, swappedTo, selects.obeys]
    exact restores_iff rfl

end RuntimeSwap

namespace Sample

open RuntimeSwap

def digest (c : Char) : String := "sha256:" ++ String.ofList (List.replicate 64 c)

def upgradeCommand : ClusterUpgradeCommandPayloadV3 where
  clusterId := "cluster"
  deploymentId := "deployment"
  generationId := "generation"
  generationNumber := 1
  revision := 2
  runtimeInstallationId := "installation"
  clusterAppId := "notes"
  mcpAppId := "mcp"
  targetManifestDigest := digest 'c'
  targetImageDigest := digest 'd'
  previousManifestDigest := digest 'a'
  previousImageDigest := digest 'b'
  resourceManifestHash := "AAAAAAAAAAAAAAAAAAAAAAAAAAAAAAAAAAAAAAAAAAA"
  runtimeResourceInventoryHash := "AAAAAAAAAAAAAAAAAAAAAAAAAAAAAAAAAAAAAAAAAAA"
  authorizationEpoch := 7
  resultingAuthorizationEpoch := 8
  upgradeEpoch := 2

/-- A running generation as the command expects it. -/
def upgradable : MasterApp :=
  { app (some .mcpV3) .running none with
    image := "registry/notes@" ++ digest 'b'
    imageDigest := digest 'b'
    manifestDigest := some (digest 'a')
    mcpDeploymentId := some "deployment"
    mcpGenerationId := some "generation"
    mcpGenerationNumber := some 1
    mcpAppId := some "mcp"
    mcpRuntimeInstallationId := some "installation"
    resourceManifestHash := some "AAAAAAAAAAAAAAAAAAAAAAAAAAAAAAAAAAAAAAAAAAA"
    runtimeResourceInventoryHash := some "AAAAAAAAAAAAAAAAAAAAAAAAAAAAAAAAAAAAAAAAAAA"
    mcpApprovalReceiptHash := some "AAAAAAAAAAAAAAAAAAAAAAAAAAAAAAAAAAAAAAAAAAA"
    mcpDeploymentGrantHash := some "AAAAAAAAAAAAAAAAAAAAAAAAAAAAAAAAAAAAAAAAAAA"
    mcpAuthorizationEpoch := some 7
    mcpAppliedRevision := some 0 }

theorem nodup_upgradable : (appKeys upgradable).Nodup := by decide +kernel

def upgradableWorld : World := world upgradable nodup_upgradable

/-- The labels of the container that the record names. -/
def upgradableLabels : FleetLabels := fun nodeId containerId ↦
  if nodeId = "n1" ∧ containerId = "c1" then some ⟨digest 'b', digest 'a', 7⟩ else none

/-- The upgrade, while the environment chooses by the call alone. -/
def upgraded (law : Law) (choose : Call → Choice) :
    Except JsError Upgraded × World × List (Call × Choice) :=
  (cluster law).traced.run (fun c _ ↦ choose c)
    (upgradeMcpV3 deploymentDeps "acme" upgradeCommand) (upgradableWorld, [])

theorem executes_upgraded {law : Law} {choose : Call → Choice} (lawful : ∀ c w, law c (choose c) w) :
    Executes (cluster law).traced (upgradeMcpV3 deploymentDeps "acme" upgradeCommand)
      (upgradableWorld, []) (.ofExcept (upgraded law choose).1) (upgraded law choose).2 :=
  Machine.executes_run _ _ (fun c s ↦ lawful c s.1) _ _

/-- The new container does not come up, and the agent restores the old one. -/
def restoring : Call → Choice
  | .request _ => { answer := some ⟨500, { recovered := some true }⟩ }
  | _ => {}

theorem upgraded_restoring :
    (match (upgraded anyLaw restoring).1 with
      | .error e => e.rolledBack
      | .ok _ => none) = some true ∧
      relabelled (fun _ ↦ none) (upgraded anyLaw restoring).2.2 upgradableLabels "n1" "c1" =
        some ⟨digest 'b', digest 'a', 8⟩ := by
  decide +kernel

theorem executes_restoring : ∃ e,
    Executes (cluster anyLaw).traced (upgradeMcpV3 deploymentDeps "acme" upgradeCommand)
      (upgradableWorld, []) (.threw e) (upgraded anyLaw restoring).2 ∧ e.rolledBack = some true := by
  have hrolledBack := upgraded_restoring.1
  have run : Executes (cluster anyLaw).traced
      (upgradeMcpV3 deploymentDeps "acme" upgradeCommand) (upgradableWorld, [])
      (.ofExcept (upgraded anyLaw restoring).1) (upgraded anyLaw restoring).2 :=
    executes_upgraded fun _ _ ↦ trivial
  cases h : (upgraded anyLaw restoring).1 with
  | ok upgraded =>
    rw [h] at hrolledBack
    cases hrolledBack
  | error e =>
    rw [h] at hrolledBack run
    exact ⟨e, run, hrolledBack⟩

end Sample

namespace RuntimeSwap

/-- A rolled back upgrade that moved the epoch label of its only container from 7 to 8. -/
theorem rolled_back_relabels : ∃ e w' calls,
    Executes (cluster anyLaw).traced
      (upgradeMcpV3 Sample.deploymentDeps "acme" Sample.upgradeCommand) (Sample.upgradableWorld, [])
      (.threw e) (w', calls) ∧
    e.rolledBack = some true ∧
    ∃ replica ∈ Sample.upgradable.replicas,
      relabelled (fun _ ↦ none) calls Sample.upgradableLabels replica.nodeId replica.containerId ≠
        Sample.upgradableLabels replica.nodeId replica.containerId := by
  obtain ⟨e, run, hrolledBack⟩ := Sample.executes_restoring
  refine ⟨e, (Sample.upgraded anyLaw Sample.restoring).2.1, (Sample.upgraded anyLaw Sample.restoring).2.2, run,
    hrolledBack, _, mem_singleton_self _, fun hsame ↦ ?_⟩
  exact absurd hsame (by decide)

theorem rolled_back_restores_iff_restoring : ∃ e w' calls,
    Executes (cluster anyLaw).traced
      (upgradeMcpV3 Sample.deploymentDeps "acme" Sample.upgradeCommand) (Sample.upgradableWorld, [])
      (.threw e) (w', calls) ∧
    ((∀ replica ∈ Sample.upgradable.replicas,
        relabelled (fun _ ↦ none) calls Sample.upgradableLabels replica.nodeId replica.containerId =
          Sample.upgradableLabels replica.nodeId replica.containerId) ↔
      ∀ replica ∈ Sample.upgradable.replicas,
        (Answered calls replica.nodeId replica.containerId Accepted →
          Sample.upgradableLabels replica.nodeId replica.containerId =
            some ⟨Sample.digest 'b', Sample.digest 'a', 8⟩) ∧
        (Answered calls replica.nodeId replica.containerId Restored →
          ∀ labels, Sample.upgradableLabels replica.nodeId replica.containerId = some labels →
            labels.authorizationEpoch = 8)) := by
  obtain ⟨e, run, hrolledBack⟩ := Sample.executes_restoring
  exact ⟨e, (Sample.upgraded anyLaw Sample.restoring).2.1, (Sample.upgraded anyLaw Sample.restoring).2.2, run,
    rolled_back_restores_iff run hrolledBack⟩

/-! ## The record and the containers -/

/-- Every redeploy is carried out and confirmed. -/
def RedeploySucceeds : Call → Choice → Prop
  | .request ⟨_, _, .redeploy _ _⟩, x => ∃ response, x.answer = some response ∧
      response.status < 300 ∧ (swapStrategy? response.body.swapStrategy).isSome
  | _, _ => True

/-- The containers of the record carry its digests. -/
def Agrees (app : MasterApp) (labels : FleetLabels) : Prop :=
  ∀ replica ∈ app.replicas, ∃ found, labels replica.nodeId replica.containerId = some found ∧
    found.imageDigest = app.imageDigest ∧ app.manifestDigest = some found.manifestDigest

/-- A write of an app record took effect, and that write or another call on app records failed. -/
def Interrupted (calls : List (Call × Choice)) : Prop :=
  ∃ filter update x, (.apps (.updateOne filter update), x) ∈ calls ∧ x.fault ≠ .refused ∧
    ∃ op x', (.apps op, x') ∈ calls ∧ x'.fault ≠ .none

section

variable {unknown : Call × Choice → Option RuntimeLabels} {labels : FleetLabels} {swap : Swap}
  {w w' : World} {calls : List (Call × Choice)} {app : MasterApp} {replicas : List AppReplica}

variable {manifestDigest : String}

/-- The labels after every replica has been sent to these digests. -/
theorem agrees_relabelled {digest : String} (hcalls : calls.map (·.1) =
      replicas.map fun replica ↦ redeployCall swap replica digest manifestDigest)
    (hconfirmed : ∀ event ∈ calls, confirmed event.2)
    (hreplicas : ∀ replica ∈ app.replicas, replicas.any (isAt replica.nodeId replica.containerId)) :
    Agrees app (relabelled unknown calls labels) ↔
      app.replicas = [] ∨ app.imageDigest = digest ∧ app.manifestDigest = some manifestDigest := by
  have happly : ∀ replica ∈ app.replicas, relabelled unknown calls labels replica.nodeId
      replica.containerId = some (swappedTo swap digest manifestDigest) := by
    intro replica hreplica
    rw [relabelled_confirmed hcalls hconfirmed, if_pos (hreplicas replica hreplica)]
  constructor
  · intro hagrees
    cases hlist : app.replicas with
    | nil => exact .inl rfl
    | cons replica rest =>
      have hmem : replica ∈ app.replicas := hlist ▸ mem_cons_self
      obtain ⟨found, hfound, himage, hmanifest⟩ := hagrees replica hmem
      obtain rfl := some.inj ((happly replica hmem).symm.trans hfound)
      exact .inr ⟨himage.symm, hmanifest⟩
  · rintro (hempty | ⟨himage, hmanifest⟩) replica hreplica
    · rw [hempty] at hreplica
      cases hreplica
    · exact ⟨_, happly replica hreplica, himage.symm, hmanifest⟩

theorem confirmed_of_succeeds {replica : AppReplica} {digest : String}
    (h : RedeploySucceeds (redeployCall swap replica digest manifestDigest) x) : confirmed x := by
  obtain ⟨response, hanswer, hstatus, -⟩ := h
  simp [confirmed, hanswer, hstatus]

theorem confirmed_of_calls {digest : String} (hcalls : calls.map (·.1) =
      replicas.map fun replica ↦ redeployCall swap replica digest manifestDigest)
    (hsucceeds : ∀ event ∈ calls, RedeploySucceeds event.1 event.2) :
    ∀ event ∈ calls, confirmed event.2 := by
  intro event hevent
  have hcall : event.1 ∈ calls.map (·.1) := List.mem_map_of_mem hevent
  rw [hcalls] at hcall
  obtain ⟨replica, -, hreplica⟩ := List.mem_map.mp hcall
  have hsucceeds := hsucceeds event hevent
  rw [← hreplica] at hsucceeds
  exact confirmed_of_succeeds hsucceeds

/-- A forward swap in which every redeploy succeeds reaches every replica. -/
theorem Forwards.complete {succeeded : List Swapped} {failure : Option (JsError × Option Bool)}
    (h : Forwards swap replicas calls succeeded failure)
    (hsucceeds : ∀ event ∈ calls, RedeploySucceeds event.1 event.2) :
    failure = none ∧ succeeded.map (·.replica) = replicas ∧
      calls.map (·.1) = replicas.map (forwardCall swap) := by
  obtain ⟨done, last, rfl, hdone, -, hlast⟩ := h.split
  cases failure with
  | none =>
    obtain ⟨rfl, hreplicas⟩ := hlast
    rw [hreplicas] at hdone
    exact ⟨rfl, hreplicas, by simpa using hdone⟩
  | some failure =>
    obtain ⟨replica, x, rfl, hfailed⟩ := hlast
    have hmem : (forwardCall swap replica, x) ∈ done ++ [(forwardCall swap replica, x)] := by simp
    obtain ⟨response, hanswer, hstatus, hstrategy⟩ := hsucceeds _ hmem
    rw [hfailed.bad response hanswer hstatus] at hstrategy
    cases hstrategy

theorem no_apps_of_requests {digest : String} {op : Operation MasterApp} (hcalls : calls.map (·.1) =
      replicas.map fun replica ↦ redeployCall swap replica digest manifestDigest) :
    ((.apps op, x) : Call × Choice) ∉ calls := by
  intro hmem
  have hcall : Call.apps op ∈ calls.map (·.1) := List.mem_map_of_mem (f := Prod.fst) hmem
  rw [hcalls] at hcall
  obtain ⟨replica, -, hreplica⟩ := List.mem_map.mp hcall
  cases hreplica

theorem any_isAt (happ : ∀ replica ∈ app.replicas, replica ∈ replicas) :
    ∀ replica ∈ app.replicas, replicas.any (isAt replica.nodeId replica.containerId) :=
  fun replica hreplica ↦ List.any_eq_true.mpr ⟨replica, happ replica hreplica, isAt_iff.mpr ⟨rfl, rfl⟩⟩

variable {swapStrategy : SwapStrategy}

/-- The replicas of a record that a swap has written are at the same containers. -/
theorem any_isAt_of_persistedAs {time : Time} :
    ∀ replica ∈ (persistedAs swap swapStrategy time app).replicas,
      app.replicas.any (isAt replica.nodeId replica.containerId) := by
  intro replica hreplica
  obtain ⟨replica', hreplica', rfl⟩ := List.mem_map.mp hreplica
  exact List.any_eq_true.mpr ⟨replica', hreplica', isAt_iff.mpr ⟨rfl, rfl⟩⟩

/-- The calls on app records among these are reads that went well. -/
def Harmless (calls : List (Call × Choice)) : Prop :=
  ∀ op x, (.apps op, x) ∈ calls → op.IsRead ∧ x.fault = .none

theorem interrupted_iff {first last : List (Call × Choice)} (hfirst : Harmless first)
    (hlast : Harmless last) : Interrupted (first ++ calls ++ last) ↔ Interrupted calls := by
  have hmem : ∀ op x, ((.apps op, x) : Call × Choice) ∈ first ++ calls ++ last →
      (.apps op, x) ∈ calls ∨ op.IsRead ∧ x.fault = .none := by
    intro op x h
    obtain h | h := mem_append.mp h
    · exact (mem_append.mp h).symm.imp_right (hfirst op x)
    · exact .inr (hlast op x h)
  constructor
  · rintro ⟨filter, update, x, hwrite, hfault, op, x', hfailed, hfault'⟩
    refine ⟨filter, update, x, ?_, hfault, op, x', ?_, hfault'⟩
    · exact (hmem _ _ hwrite).resolve_right fun h ↦ h.1
    · exact (hmem _ _ hfailed).resolve_right fun h ↦ hfault' h.2
  · rintro ⟨filter, update, x, hwrite, hfault, op, x', hfailed, hfault'⟩
    exact ⟨filter, update, x, mem_append_left _ (mem_append_right _ hwrite), hfault, op, x',
      mem_append_left _ (mem_append_right _ hfailed), hfault'⟩

theorem harmless_of_requests {digest : String} (hcalls : calls.map (·.1) =
      replicas.map fun replica ↦ redeployCall swap replica digest manifestDigest) :
    Harmless calls :=
  fun _ _ h ↦ absurd h (no_apps_of_requests hcalls)

/-- The command names the digests that the record holds already. -/
def SameDigests (command : ClusterUpgradeCommandPayloadV3) : Prop :=
  command.targetImageDigest = command.previousImageDigest ∧
    command.targetManifestDigest = command.previousManifestDigest

theorem exists_agrees_iff {appId : String} (happ : w.app appId = some app) :
    (∃ app, w.app appId = some app ∧ Agrees app labels) ↔ Agrees app labels := by
  simp [happ]

/-- What writing the record does, and whether it was interrupted. -/
theorem Persists.record {r : Except JsError (Option MasterApp)} (hcurrent : Current swap w)
    (h : Persists law swap swapStrategy w r w' calls) :
    (∀ event ∈ calls, ∀ sent, event.1 ≠ .request sent) ∧
      ((∃ e, r = .error e) ∧ w'.app swap.app.appId = some swap.app ∧ ¬ Interrupted calls ∨
        ∃ app, Written law swap w w' app ∧
          ((∃ e, r = .error e) ∧ Interrupted calls ∨ r = .ok (some app) ∧ ¬ Interrupted calls)) := by
  cases h with
  | @refused time x x' _ fault apps =>
    refine ⟨by simp [persistCall], .inl ⟨⟨_, rfl⟩, ?_, ?_⟩⟩
    · rw [World.app, apps]
      exact hcurrent.record
    · rintro ⟨filter, update, y, hwrite, hfault, -⟩
      simp only [mem_cons, Prod.mk.injEq, reduceCtorEq, false_and, not_mem_nil, or_false,
        false_or] at hwrite
      exact hfault (hwrite.2 ▸ fault)
  | @lost time x x' _ app fault written =>
    refine ⟨by simp [persistCall], .inr ⟨app, written, .inl ⟨⟨_, rfl⟩,
      persistFilter swap, persistedAs swap swapStrategy time, x', ?_, ?_⟩⟩⟩
    · exact mem_cons_of_mem _ mem_cons_self
    · rw [fault]
      exact ⟨by decide, _, x', mem_cons_of_mem _ mem_cons_self, by rw [fault]; decide⟩
  | @unread time x x' x'' _ app fault fault' written =>
    refine ⟨by simp [persistCall, rereadCall], .inr ⟨app, written, .inl ⟨⟨_, rfl⟩,
      persistFilter swap, persistedAs swap swapStrategy time, x', ?_, ?_⟩⟩⟩
    · exact mem_cons_of_mem _ mem_cons_self
    · rw [fault]
      exact ⟨by decide, _, x'', mem_cons_of_mem _ (mem_cons_of_mem _ mem_cons_self),
        fault'⟩
  | @written time x x' x'' _ app fault fault' written =>
    refine ⟨by simp [persistCall, rereadCall], .inr ⟨app, written, .inr ⟨rfl, ?_⟩⟩⟩
    rintro ⟨-, -, -, -, -, op, y, hfailed, hfault⟩
    simp only [mem_cons, Prod.mk.injEq, reduceCtorEq, false_and, not_mem_nil, or_false,
      false_or] at hfailed
    obtain ⟨-, rfl⟩ | ⟨-, rfl⟩ := hfailed
    · exact hfault fault
    · exact hfault fault'

/-- The replicas of a record that a swap has written, sent to some digests. -/
theorem agrees_persisted {time : Time} {digest : String} (hcalls : calls.map (·.1) =
      swap.app.replicas.map fun replica ↦ redeployCall swap replica digest manifestDigest)
    (hconfirmed : ∀ event ∈ calls, confirmed event.2) (hreplicas : swap.app.replicas ≠ []) :
    Agrees (persistedAs swap swapStrategy time swap.app) (relabelled unknown calls labels) ↔
      swap.command.targetImageDigest = digest ∧
        swap.command.targetManifestDigest = manifestDigest := by
  have hnonempty : (persistedAs swap swapStrategy time swap.app).replicas ≠ [] := by
    simpa [persistedAs, upgradedAs, AppLifecycle.setReplicaStates] using hreplicas
  rw [agrees_relabelled hcalls hconfirmed any_isAt_of_persistedAs, or_iff_right hnonempty]
  simp [persistedAs, upgradedAs]

theorem Performs.agreed_iff {r : Except JsError Upgraded} (hcurrent : Current swap w)
    (hmanifest : swap.app.manifestDigest = some swap.command.previousManifestDigest)
    (himage : swap.app.imageDigest = swap.command.previousImageDigest)
    (hsucceeds : ∀ event ∈ calls, RedeploySucceeds event.1 event.2)
    (h : Performs law swap w r w' calls) :
    (∃ app, w'.app swap.app.appId = some app ∧ Agrees app (relabelled unknown calls labels)) ↔
      ¬ Interrupted calls ∨ SameDigests swap.command := by
  cases h with
  | @upgraded forward concluding succeeded upgraded failure w₁ _ apps forwards concludes =>
    obtain ⟨rfl, hreplicas, hforward⟩ := forwards.complete
      fun event hevent ↦ hsucceeds event (mem_append_left _ hevent)
    have hconfirmed := confirmed_of_calls hforward
      fun event hevent ↦ hsucceeds event (mem_append_left _ hevent)
    cases concludes with
    | @upgraded swapStrategy app _ _ _ common persists =>
      obtain ⟨hquiet, hrecord⟩ := persists.record (hcurrent.of_apps apps)
      obtain ⟨⟨_, h⟩, -⟩ | ⟨app', hwritten, ⟨⟨_, h⟩, -⟩ | ⟨-, hcalm⟩⟩ := hrecord
      · cases h
      · cases h
      · obtain ⟨_, _, -, rfl⟩ := hwritten.strategy
        have hinterrupted : Interrupted (forward ++ concluding) ↔ Interrupted concluding := by
          rw [← append_nil (forward ++ concluding)]
          exact interrupted_iff (harmless_of_requests hforward) fun _ _ h ↦ by cases h
        have hnonempty : swap.app.replicas ≠ [] := by
          rw [← hreplicas]
          intro hempty
          rw [map_eq_nil_iff.mp hempty] at common
          cases common
        rw [exists_agrees_iff hwritten.record, relabelled_append, relabelled_of_no_request hquiet,
          agrees_persisted hforward hconfirmed hnonempty, hinterrupted]
        exact iff_of_true ⟨rfl, rfl⟩ (.inl hcalm)
  | @reverted forward concluding back succeeded failure reason w₁ w₂ _ apps forwards concludes reverts
      apps' =>
    obtain ⟨rfl, hreplicas, hforward⟩ := forwards.complete fun event hevent ↦
      hsucceeds event (mem_append_left _ (mem_append_left _ hevent))
    have hback : back.map (·.1) = swap.app.replicas.map (revertCall swap) := by
      rw [reverts, ← hreplicas, List.map_map]
      rfl
    have hconfirmed := confirmed_of_calls hback
      fun event hevent ↦ hsucceeds event (mem_append_right _ hevent)
    have hinterrupted : Interrupted (forward ++ concluding ++ back) ↔ Interrupted concluding :=
      interrupted_iff (harmless_of_requests hforward) (harmless_of_requests hback)
    have hkept (hrecord : w₂.app swap.app.appId = some swap.app) (hcalm : ¬ Interrupted concluding) :
        (∃ app, w'.app swap.app.appId = some app ∧
          Agrees app (relabelled unknown (forward ++ concluding ++ back) labels)) ↔
        ¬ Interrupted (forward ++ concluding ++ back) ∨ SameDigests swap.command := by
      have hrecord' : w'.app swap.app.appId = some swap.app := by
        rw [World.app, apps']
        exact hrecord
      rw [exists_agrees_iff hrecord', relabelled_append,
        agrees_relabelled hback hconfirmed (any_isAt fun _ h ↦ h), hinterrupted]
      exact iff_of_true (.inr ⟨himage, hmanifest⟩) (.inl hcalm)
    cases concludes with
    | failed failure => cases failure
    | inconsistent =>
      refine hkept ?_ (by simp [Interrupted])
      rw [World.app, apps]
      exact hcurrent.record
    | @unwritten swapStrategy error _ _ _ common persists =>
      obtain ⟨hquiet, hrecord⟩ := persists.record (hcurrent.of_apps apps)
      obtain ⟨-, hrecord, hcalm⟩ | ⟨app', hwritten, ⟨-, hinterrupts⟩ | ⟨h, -⟩⟩ := hrecord
      · exact hkept hrecord hcalm
      · obtain ⟨_, _, -, rfl⟩ := hwritten.strategy
        have hnonempty : swap.app.replicas ≠ [] := by
          rw [← hreplicas]
          intro hempty
          rw [map_eq_nil_iff.mp hempty] at common
          cases common
        have hrecord' := (hwritten.then_apps apps').record
        rw [exists_agrees_iff hrecord', relabelled_append,
          agrees_persisted hback hconfirmed hnonempty, hinterrupted]
        exact (or_iff_right (not_not_intro hinterrupts)).symm
      · cases h

/--
When every redeploy succeeds, record and containers agree after an upgrade exactly when the write
of the record was not interrupted, or the command names the same digests twice.
-/
theorem upgrade_agrees_iff {deps : DeploymentDeps} {workspaceId : String}
    {command : ClusterUpgradeCommandPayloadV3} {r : Except JsError Upgraded}
    (found : w.apps.docs.find? (isInstallation workspaceId command.runtimeInstallationId) = some app)
    (agrees : Agrees app labels)
    (run : Executes (cluster fun c x _ ↦ RedeploySucceeds c x).traced
      (upgradeMcpV3 deps workspaceId command) (w, []) (.ofExcept r) (w', calls)) :
    (∃ app', w'.app app.appId = some app' ∧ Agrees app' (relabelled unknown calls labels)) ↔
      ¬ Interrupted calls ∨ SameDigests command := by
  obtain ⟨hupgrades, hsucceeds⟩ := (upgradeMcpV3_traces.permitted (P := RedeploySucceeds) fun _ _ _ h ↦ h).post run
  cases hupgrades with
  | unswapped apps plain =>
    have hrecord : w'.app app.appId = some app := by
      rw [World.app, apps]
      exact World.app_eq_some.mpr ⟨mem_of_find?_eq_some found, rfl⟩
    rw [exists_agrees_iff hrecord, relabelled_of_no_request (no_request_of_isPlain plain)]
    refine iff_of_true agrees (.inl ?_)
    rintro ⟨filter, update, x, hwrite, -⟩
    exact plain _ hwrite
  | @swapped swap _ _ w₂ _ first middle last selects apps plain answered performs apps' unlocks =>
    obtain rfl := Option.some.inj (selects.ready.found.symm.trans found)
    have hfirst : Harmless first :=
      fun op x hmem ↦ ⟨plain _ hmem, Classical.not_not.mp (answered _ hmem)⟩
    have hlast : Harmless last := by
      intro op x hmem
      cases unlocks _ hmem
    have hperformed : (∃ app', w₂.app swap.app.appId = some app' ∧
        Agrees app' (relabelled unknown middle labels)) ↔
          ¬ Interrupted middle ∨ SameDigests swap.command :=
      performs.agreed_iff ((current_of_ready selects).of_apps apps)
        (selects.obeys ▸ selects.ready.previousManifest) (selects.obeys ▸ selects.ready.previousImage)
        fun event hevent ↦
          hsucceeds event (mem_append_left _ (mem_append_right _ hevent))
    rw [interrupted_iff hfirst hlast, relabelled_append, relabelled_append,
      relabelled_of_no_request (no_request_of_isPlain plain),
      relabelled_of_no_request (no_request_of_release unlocks), ← selects.obeys, ← hperformed]
    simp only [World.app, apps']

end

end RuntimeSwap

namespace Sample

open RuntimeSwap

/-- Every redeploy succeeds, and the answer to the write of the record is lost. -/
def losing : Call → Choice
  | .request _ => { answer := some ⟨200, { swapStrategy := some "STOP_THEN_CREATE" }⟩ }
  | .apps (.updateOne _ _) => { fault := .lost }
  | _ => {}

def lost : Except JsError Upgraded × World × List (Call × Choice) :=
  upgraded (fun c x _ ↦ RedeploySucceeds c x) losing

theorem executes_losing :
    Executes (cluster fun c x _ ↦ RedeploySucceeds c x).traced
      (upgradeMcpV3 deploymentDeps "acme" upgradeCommand) (upgradableWorld, [])
      (.ofExcept lost.1) lost.2 := by
  refine executes_upgraded fun c w ↦ ?_
  unfold RedeploySucceeds
  split
  · exact ⟨_, rfl, by decide, by decide⟩
  · trivial

theorem upgradable_found :
    upgradableWorld.apps.docs.find? (isInstallation "acme" upgradeCommand.runtimeInstallationId) =
      some upgradable := by
  decide +kernel

theorem upgradable_agrees : RuntimeSwap.Agrees upgradable upgradableLabels := by
  intro replica hreplica
  obtain rfl := mem_singleton.mp hreplica
  exact ⟨⟨digest 'b', digest 'a', 7⟩, rfl, rfl, rfl⟩

theorem lost_record :
    (lost.2.1.app upgradable.appId).map (fun app ↦ (app.imageDigest, app.replicas.length)) =
        some (digest 'd', 1) ∧
      (lost.2.1.app upgradable.appId).all (fun app ↦
        app.replicas.all fun replica ↦ replica.nodeId == "n1" && replica.containerId == "c1") ∧
      relabelled (fun _ ↦ none) lost.2.2 upgradableLabels "n1" "c1" =
        some ⟨digest 'b', digest 'a', 8⟩ := by
  decide +kernel

end Sample

namespace RuntimeSwap

/-- The write took effect, its answer was lost, and the container went back alone. -/
theorem upgrade_disagrees : ∃ r w' calls,
    Executes (cluster fun c x _ ↦ RedeploySucceeds c x).traced
      (upgradeMcpV3 Sample.deploymentDeps "acme" Sample.upgradeCommand) (Sample.upgradableWorld, [])
      (.ofExcept r) (w', calls) ∧
    Sample.upgradableWorld.app Sample.upgradable.appId = some Sample.upgradable ∧
    Agrees Sample.upgradable Sample.upgradableLabels ∧
    ¬ ∃ app', w'.app Sample.upgradable.appId = some app' ∧
      Agrees app' (relabelled (fun _ ↦ none) calls Sample.upgradableLabels) := by
  refine ⟨Sample.lost.1, Sample.lost.2.1, Sample.lost.2.2, Sample.executes_losing, by decide +kernel,
    Sample.upgradable_agrees, ?_⟩
  rintro ⟨app, happ, hagrees⟩
  obtain ⟨hrecord, hplaces, hlabels⟩ := Sample.lost_record
  simp only [happ, Option.map_some, Option.some.injEq, Prod.mk.injEq, Option.all_some,
    List.all_eq_true, Bool.and_eq_true, beq_iff_eq] at hrecord hplaces
  obtain ⟨himage, hlength⟩ := hrecord
  obtain ⟨replica, hreplica⟩ := exists_mem_of_length_pos (hlength ▸ Nat.one_pos)
  obtain ⟨found, hfound, hsame, -⟩ := hagrees replica hreplica
  obtain ⟨hnode, hcontainer⟩ := hplaces replica hreplica
  rw [hnode, hcontainer] at hfound
  obtain rfl := Option.some.inj hfound
  rw [himage] at hsame
  exact absurd hsame (by decide +kernel)

theorem upgrade_agrees_iff_losing :
    (∃ app', Sample.lost.2.1.app Sample.upgradable.appId = some app' ∧
      Agrees app' (relabelled (fun _ ↦ none) Sample.lost.2.2 Sample.upgradableLabels)) ↔
      ¬ Interrupted Sample.lost.2.2 ∨ SameDigests Sample.upgradeCommand :=
  upgrade_agrees_iff Sample.upgradable_found Sample.upgradable_agrees Sample.executes_losing

end RuntimeSwap

end PrivosCluster
