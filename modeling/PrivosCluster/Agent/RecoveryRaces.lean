import PrivosCluster.AsyncProgram.Debts
import PrivosCluster.Agent.DesiredStateRecovery

/-!
# Recovery among stops and starts

A stop records first and acts second, a start acts first and records second, and recovery looks at
the record again after it has started a container. Whoever leaves a running container recorded as
stopped therefore still owes a stop or a record.
-/

namespace PrivosCluster.Agent

open AsyncProgram ContainerManager

/-! ## The record -/

namespace DesiredStateFile

/-- An operation that has nothing to save leaves the file as it is. -/
def SavesChanges (mutate : DesiredStateFile → DesiredStateFile × Bool) : Prop :=
  ∀ state, (mutate state).2 = false → (mutate state).1 = state

variable {dockerId other bootId : String} {desired : DesiredContainerState}
  {runningIds : List String} {state : DesiredStateFile}

theorem savesChanges_mark : SavesChanges (mark dockerId desired) := by
  intro state
  unfold mark
  split <;> simp

theorem savesChanges_remove : SavesChanges (remove dockerId) := by
  intro state
  unfold remove
  split <;> simp

/-- Seeding keeps what is recorded, and the boot id. -/
theorem foldl_seedOne (runningIds : List String) (seeded : DesiredStateFile × Bool) :
    (runningIds.foldl seedOne seeded).1.bootId = seeded.1.bootId ∧
      (∀ dockerId desired, seeded.1.containers.lookup dockerId = some desired →
        (runningIds.foldl seedOne seeded).1.containers.lookup dockerId = some desired) ∧
      (∀ dockerId, (runningIds.foldl seedOne seeded).1.containers.lookup dockerId = some .stopped →
        seeded.1.containers.lookup dockerId = some .stopped) ∧
      ((runningIds.foldl seedOne seeded).2 = false →
        runningIds.foldl seedOne seeded = seeded) := by
  induction runningIds generalizing seeded with
  | nil => exact ⟨rfl, fun _ _ h ↦ h, fun _ h ↦ h, fun _ ↦ rfl⟩
  | cons runningId runningIds ih =>
    obtain ⟨hboot, hkeeps, hstopped, hunchanged⟩ := ih (seedOne seeded runningId)
    rw [List.foldl_cons]
    by_cases hmem : runningId ∈ seeded.1.containers
    · have hone : seedOne seeded runningId = seeded := if_pos hmem
      rw [hone] at hboot hkeeps hstopped hunchanged ⊢
      exact ⟨hboot, hkeeps, hstopped, hunchanged⟩
    · have hone : seedOne seeded runningId = ({ seeded.1 with
          containers := seeded.1.containers.insert runningId .running }, true) := if_neg hmem
      have hnone : seeded.1.containers.lookup runningId = none := AList.lookup_eq_none.mpr hmem
      refine ⟨by rw [hboot, hone], fun dockerId desired hrecord ↦ ?_, fun dockerId hrecord ↦ ?_, ?_⟩
      · apply hkeeps
        have hne : dockerId ≠ runningId := by
          intro h
          rw [h, hnone] at hrecord
          cases hrecord
        rw [hone, AList.lookup_insert_ne hne]
        exact hrecord
      · have hseeded := hstopped dockerId hrecord
        rw [hone] at hseeded
        by_cases heq : dockerId = runningId
        · rw [heq, AList.lookup_insert] at hseeded
          cases hseeded
        · rwa [AList.lookup_insert_ne heq] at hseeded
      · intro hfalse
        have heq := hunchanged hfalse
        rw [heq, hone] at hfalse
        cases hfalse

theorem savesChanges_seedAndStamp : SavesChanges (seedAndStamp runningIds bootId) := by
  intro state hfalse
  obtain ⟨-, -, -, hunchanged⟩ := foldl_seedOne runningIds
    ({ state with bootId := bootId }, decide (state.bootId ≠ bootId))
  have heq := hunchanged hfalse
  rw [seedAndStamp] at hfalse
  rw [heq] at hfalse
  have hboot : state.bootId = bootId := by simpa using hfalse
  rw [seedAndStamp, heq, ← hboot]

end DesiredStateFile

namespace DesiredStorage

/-- The file as an operation finds it. -/
def contents (storage : DesiredStorage) : DesiredStateFile := storage.load.1.getD .empty

variable {storage : DesiredStorage} {dockerId other bootId : String}
  {desired : DesiredContainerState} {runningIds : List String}

theorem record_eq : storage.record dockerId = storage.contents.containers.lookup dockerId := by
  cases storage <;> rfl

theorem contents_change {mutate : DesiredStateFile → DesiredStateFile × Bool}
    (h : DesiredStateFile.SavesChanges mutate) :
    (storage.change mutate).contents = (mutate storage.contents).1 := by
  have hloaded : storage.load.2.contents = storage.contents := by cases storage <;> rfl
  unfold change
  simp only
  split
  · rfl
  next hchanged =>
    rw [hloaded, h storage.contents (by simpa [contents] using hchanged)]

theorem record_mark : (storage.change (DesiredStateFile.mark dockerId desired)).record other =
    if other = dockerId then some desired else storage.record other := by
  rw [record_eq, contents_change DesiredStateFile.savesChanges_mark, record_eq]
  unfold DesiredStateFile.mark
  split
  next hsame =>
    split
    next heq => rw [heq, hsame]
    next => rfl
  next =>
    split
    next heq => rw [heq, AList.lookup_insert]
    next hne => rw [AList.lookup_insert_ne hne]

theorem record_remove : (storage.change (DesiredStateFile.remove dockerId)).record other =
    if other = dockerId then none else storage.record other := by
  rw [record_eq, contents_change DesiredStateFile.savesChanges_remove, record_eq]
  unfold DesiredStateFile.remove
  split
  next =>
    split
    next heq => rw [heq, AList.lookup_erase]
    next hne => rw [AList.lookup_erase_ne hne]
  next habsent =>
    split
    next heq => rw [heq, AList.lookup_eq_none.mpr habsent]
    next => rfl

/-- Seeding records nothing as stopped. -/
theorem record_seedAndStamp
    (h : (storage.change (DesiredStateFile.seedAndStamp runningIds bootId)).record other =
      some .stopped) : storage.record other = some .stopped := by
  rw [record_eq, contents_change DesiredStateFile.savesChanges_seedAndStamp] at h
  rw [record_eq]
  exact (DesiredStateFile.foldl_seedOne _ _).2.2.1 _ h

theorem record_load : storage.load.2.record other = storage.record other := by
  cases storage <;> rfl

end DesiredStorage

/-! ## The containers -/

variable {exits : List (String × Bool)} {answer : Except AgentError Unit} {d : RecoveryDebt}
  {recorded : Option DesiredStateFile}

namespace Containers

variable {containers : Containers} {dockerId other : String}

theorem isUp_run (h : dockerId ≠ other) :
    (containers.run dockerId).isUp other = containers.isUp other := by
  unfold run isUp
  cases containers.lookup dockerId with
  | none => rfl
  | some container => rw [AList.lookup_insert_ne h.symm]

theorem isUp_run_self (h : dockerId ∈ containers) :
    (containers.run dockerId).isUp dockerId := by
  obtain ⟨container, hfound⟩ := Option.isSome_iff_exists.mp (AList.lookup_isSome.mpr h)
  simp [run, isUp, hfound]

/-- A container that ends is down, and no other comes up. -/
theorem isUp_exit {oomKilled : Bool} {time : Time} :
    (containers.exit dockerId oomKilled time).isUp other =
      (containers.isUp other && !decide (other = dockerId)) := by
  unfold exit
  obtain rfl | hne := eq_or_ne other dockerId
  · cases hfound : containers.lookup other with
    | none => simp [isUp, hfound]
    | some container => by_cases hup : container.status.isUp <;>
        simp [isUp, hfound, hup]
  · cases hfound : containers.lookup dockerId with
    | none => simp [hne]
    | some container => by_cases hup : container.status.isUp <;>
        simp [isUp, hup, hne, AList.lookup_insert_ne hne]

theorem isUp_erase :
    isUp (containers.erase dockerId) other =
      (containers.isUp other && !decide (other = dockerId)) := by
  unfold isUp
  obtain rfl | hne := eq_or_ne other dockerId
  · simp
  · simp [hne, AList.lookup_erase_ne hne]

theorem isUp_exits {time : Time}
    (h : (exits.foldl (fun containers e ↦ containers.exit e.1 e.2 time) containers).isUp other =
      true) : containers.isUp other := by
  induction exits generalizing containers with
  | nil => exact h
  | cons e exits ih =>
    have hexit := ih h
    rw [isUp_exit, Bool.and_eq_true] at hexit
    exact hexit.1

end Containers

theorem Node.isUp_afterExits {node : Node} {dockerId : String}
    (h : (node.afterExits exits).containers.isUp dockerId) : node.containers.isUp dockerId :=
  Containers.isUp_exits h

/-! ## What tasks owe -/

/-- A container that runs although it is recorded as stopped. -/
def RunsStopped (dockerId : String) (node : Node) : Prop :=
  node.desired.record dockerId = some .stopped ∧ node.containers.isUp dockerId = true

/-- Docker may refuse to start a container; apart from that nothing fails. -/
def ioSucceeds : NodeLaw
  | .start _, _, _ => True
  | _, x, _ => x.failure = none

/-- A call is answered as the node answers that does not fail. -/
def recoveryTerms (bootId : String) : Terms nodeSignature AgentError where
  allows _ := True
  answers c answer := ∃ x node, ioSucceeds c x node ∧ node.bootId = bootId ∧
    answer = (respondNode c x node).1
  answerable c := ⟨_, {}, ⟨∅, .missing, bootId, [], ∅, ∅, false, 0⟩, by cases c <;> trivial, rfl, rfl⟩

/-- The calls after which the container does not run while it is recorded as stopped. -/
def settlesStop (dockerId : String) : (c : NodeCall) → Except AgentError c.Answer → Prop
  | .stop other, _ => other = dockerId
  | .markDesired other desired, _ => other = dockerId ∧ desired = .running
  | .readDesired, .ok (state : Option DesiredStateFile) =>
    state.bind (·.containers.lookup dockerId) ≠ some .stopped
  | _, _ => False

/-- The record was last stamped in the current boot. -/
def Stamped (node : Node) : Prop := node.desired.contents.bootId = node.bootId

/-- A stop of a container that is still due, or the stamp of the boot. -/
inductive RecoveryDebt where
  | stop (dockerId : String)
  | stamp

def RecoveryDebt.Due : RecoveryDebt → Node → Prop
  | .stop dockerId, node => RunsStopped dockerId node
  | .stamp, node => ¬ Stamped node

/-- A record of a stop makes a stop due, and a start or restart a look at the record. -/
def recoveryDebts (bootId : String) : Debts (recoveryTerms bootId) RecoveryDebt where
  incurs
    | .stop dockerId, c, answer => c = NodeCall.markDesired dockerId .stopped ∨
      (c = NodeCall.start dockerId ∧ answer.isOk) ∨ c = NodeCall.restart dockerId
    | .stamp, c, _ => ∃ runningIds other, c = NodeCall.seedAndStamp runningIds other ∧ other ≠ bootId
  settles
    | .stop dockerId, c, answer => settlesStop dockerId c answer
    | .stamp, c, _ => ∃ runningIds, c = NodeCall.seedAndStamp runningIds bootId

section Calls

variable {c : NodeCall} {x : NodeChoice} {node : Node} {dockerId bootId : String}

theorem respondNode_cases : (respondNode c x node).2 = node.afterExits x.exits ∨
    respondNode c x node = serve x c (node.afterExits x.exits) := by
  unfold respondNode
  cases x.failure with
  | none => exact .inr rfl
  | some e => cases c <;> first | exact .inl rfl | exact .inr rfl

theorem bootId_respondNode : (respondNode c x node).2.bootId = node.bootId := by
  have hserve : (serve x c (node.afterExits x.exits)).2.bootId = node.bootId := by
    cases c <;> simp only [serve] <;> (try split) <;> (try split) <;> rfl
  obtain h | h := @respondNode_cases c x node
  · rw [h]
    rfl
  · rw [h]
    exact hserve

theorem isUp_serve (h : (serve x c node).2.containers.isUp dockerId) :
    node.containers.isUp dockerId ∨
      (c = NodeCall.start dockerId ∧ (serve x c node).1.isOk) ∨
        c = NodeCall.restart dockerId := by
  cases c with
  | start other =>
    by_cases heq : other = dockerId
    · subst heq
      by_cases hup : node.containers.isUp other
      · exact .inl hup
      · by_cases hmem : other ∈ node.containers
        · exact .inr (.inl ⟨rfl, by simp [serve, hup, hmem, Except.isOk, Except.toBool]⟩)
        · simp only [serve, hup, hmem, if_false] at h
          exact absurd h hup
    · left
      simp only [serve] at h
      split at h
      · exact h
      · split at h
        · rwa [Containers.isUp_run heq] at h
        · exact h
  | restart other =>
    by_cases heq : other = dockerId
    · exact .inr (.inr (by rw [heq]))
    · left
      simp only [serve] at h
      split at h
      · rwa [Containers.isUp_run heq] at h
      · exact h
  | stop other =>
    left
    simp only [serve] at h
    split at h
    · rw [Containers.isUp_exit, Bool.and_eq_true] at h
      exact h.1
    · split at h <;> exact h
  | remove other force =>
    left
    simp only [serve] at h
    split at h
    · exact h
    · split at h
      · rw [Containers.isUp_erase, Bool.and_eq_true] at h
        exact h.1
      · exact h
  | _ => exact .inl h

/-- A container comes up only by a start or a restart. -/
theorem isUp_respondNode (h : (respondNode c x node).2.containers.isUp dockerId) :
    node.containers.isUp dockerId ∨
      (c = NodeCall.start dockerId ∧ (respondNode c x node).1.isOk) ∨
        c = NodeCall.restart dockerId := by
  obtain heq | heq := @respondNode_cases c x node
  · rw [heq] at h
    exact .inl (Node.isUp_afterExits h)
  · rw [heq] at h ⊢
    exact (isUp_serve h).imp_left Node.isUp_afterExits

theorem record_serve (h : (serve x c node).2.desired.record dockerId = some .stopped) :
    node.desired.record dockerId = some .stopped ∨ c = NodeCall.markDesired dockerId .stopped := by
  cases c with
  | markDesired other desired =>
    simp only [serve, DesiredStorage.record_mark] at h
    split at h
    next heq => exact .inr (by rw [heq, Option.some.inj h])
    next => exact .inl h
  | removeDesired other =>
    simp only [serve, DesiredStorage.record_remove] at h
    split at h
    · cases h
    · exact .inl h
  | seedAndStamp runningIds bootId => exact .inl (DesiredStorage.record_seedAndStamp h)
  | readDesired =>
    left
    simpa only [serve, DesiredStorage.record_load] using h
  | start other | stop other | restart other =>
    left
    simp only [serve] at h
    split at h
    · exact h
    · first | exact h | (split at h <;> exact h)
  | remove other force =>
    left
    simp only [serve] at h
    split at h
    · exact h
    · split at h <;> exact h
  | _ => exact .inl h

/-- Only a stop is recorded as a stop. -/
theorem record_respondNode
    (h : (respondNode c x node).2.desired.record dockerId = some .stopped) :
    node.desired.record dockerId = some .stopped ∨ c = NodeCall.markDesired dockerId .stopped := by
  obtain heq | heq := @respondNode_cases c x node
  · rw [heq] at h
    exact .inl h
  · rw [heq] at h
    have hserved : (node.afterExits x.exits).desired.record dockerId = some .stopped ∨
        c = NodeCall.markDesired dockerId .stopped := record_serve h
    exact hserved

/-- A container that is told to stop is down, unless the call fails. -/
theorem not_isUp_stop (hfailure : x.failure = none) :
    ¬ (respondNode (.stop dockerId) x node).2.containers.isUp dockerId := by
  intro hup
  rw [respondNode, hfailure] at hup
  simp only [serve] at hup
  split at hup
  · simp [Containers.isUp_exit] at hup
  next hdown => split at hup <;> exact hdown hup

/-- What settles a stop does so, unless it fails. -/
theorem settlesStop_respondNode (hlaw : ioSucceeds c x node)
    (h : settlesStop dockerId c (respondNode c x node).1) :
    ¬ RunsStopped dockerId (respondNode c x node).2 := by
  intro hruns
  obtain ⟨hstopped, hup⟩ := hruns
  cases c with
  | stop other =>
    obtain rfl : other = dockerId := h
    exact not_isUp_stop hlaw hup
  | markDesired other desired =>
    obtain ⟨rfl, rfl⟩ : other = dockerId ∧ desired = .running := h
    have hfailure : x.failure = none := hlaw
    rw [respondNode, hfailure] at hstopped
    simp only [serve, DesiredStorage.record_mark, if_true] at hstopped
    cases hstopped
  | readDesired =>
    have hfailure : x.failure = none := hlaw
    rw [respondNode, hfailure] at h hstopped
    simp only [serve, DesiredStorage.record_load] at hstopped
    exact h hstopped
  | _ => exact h

/-- Only a stamp changes the boot that is recorded, and none that fails. -/
theorem contents_bootId_serve : (serve x c node).2.desired.contents.bootId =
    match c with
    | .seedAndStamp _ other => other
    | _ => node.desired.contents.bootId := by
  cases c with
  | markDesired other desired =>
    simp only [serve]
    rw [DesiredStorage.contents_change DesiredStateFile.savesChanges_mark]
    unfold DesiredStateFile.mark
    split <;> rfl
  | removeDesired other =>
    simp only [serve]
    rw [DesiredStorage.contents_change DesiredStateFile.savesChanges_remove]
    unfold DesiredStateFile.remove
    split <;> rfl
  | seedAndStamp runningIds other =>
    simp only [serve]
    rw [DesiredStorage.contents_change DesiredStateFile.savesChanges_seedAndStamp]
    exact (DesiredStateFile.foldl_seedOne _ _).1
  | readDesired =>
    simp only [serve]
    cases node.desired <;> rfl
  | start other | stop other | restart other =>
    simp only [serve]
    split
    · rfl
    · first | rfl | (split <;> rfl)
  | remove other force =>
    simp only [serve]
    split
    · rfl
    · split <;> rfl
  | _ => rfl

/-- The boot stays stamped unless another one is. -/
theorem stamped_respondNode (hstamped : Stamped node)
    (hc : ∀ runningIds other, c = NodeCall.seedAndStamp runningIds other → other = node.bootId) :
    Stamped (respondNode c x node).2 := by
  unfold Stamped
  rw [bootId_respondNode]
  obtain heq | heq := @respondNode_cases c x node
  · rw [heq]
    exact hstamped
  · rw [heq, contents_bootId_serve]
    split
    · exact hc _ _ rfl
    · exact hstamped

theorem stamped_of_stamp {runningIds : List String} (hlaw : ioSucceeds c x node)
    (hc : c = NodeCall.seedAndStamp runningIds node.bootId) :
    Stamped (respondNode c x node).2 := by
  subst hc
  have hfailure : x.failure = none := hlaw
  unfold Stamped
  rw [bootId_respondNode, respondNode, hfailure, contents_bootId_serve]

end Calls

/-- What is due is what tasks have brought about and not paid. -/
theorem recoveryDebts_booked (bootId : String) :
    (recoveryDebts bootId).Booked (nodeMachine ioSucceeds) (fun node ↦ node.bootId = bootId)
      RecoveryDebt.Due where
  keeps c x node _ hx hboot :=
    ⟨bootId_respondNode.trans hboot, x, node, hx, hboot, rfl⟩
  incurred d c x node _ _ hboot hdue := by
    cases d with
    | stop dockerId =>
      obtain ⟨hstopped, hup⟩ := hdue
      obtain hup' | hcomesUp := isUp_respondNode hup
      · obtain hstopped' | hmark := record_respondNode hstopped
        · exact .inl ⟨hstopped', hup'⟩
        · exact .inr (.inl hmark)
      · exact .inr (.inr hcomesUp)
    | stamp =>
      by_cases hstamped : Stamped node
      · right
        by_contra hnone
        apply hdue
        apply stamped_respondNode hstamped
        intro runningIds other hc
        by_contra hne
        exact hnone ⟨runningIds, other, hc, hboot ▸ hne⟩
      · exact .inl hstamped
  settled d _ _ _ _ hx hboot hsettles := by
    cases d with
    | stop dockerId => exact settlesStop_respondNode hx hsettles
    | stamp =>
      obtain ⟨runningIds, hc⟩ := hsettles
      exact not_not_intro (stamped_of_stamp hx (hboot ▸ hc))

/-! ## Every task pays -/

section Tasks

variable {bootId dockerId : String} {config : AgentConfig} {store : DesiredStateStore}

theorem mark_enabled (henabled : store.enabled) (desired : DesiredContainerState) :
    store.mark dockerId desired = await (.markDesired dockerId desired) := if_pos henabled

theorem stamp_enabled (henabled : store.enabled) (runningIds : List String) :
    store.seedAndStamp runningIds bootId = await (.seedAndStamp runningIds bootId) :=
  if_pos henabled

theorem read_enabled (henabled : store.enabled) :
    store.read = (await .readDesired : NodeProgram (Option DesiredStateFile)) := if_pos henabled

/-- What the node always does succeeds when nothing fails. -/
theorem isOk_answer {c : NodeCall} {answer : Except AgentError c.Answer}
    (hanswer : (recoveryTerms bootId).answers c answer)
    (hserve : ∀ x node, (serve x c node).1.isOk) (hc : ∀ dockerId, c ≠ NodeCall.start dockerId) :
    answer.isOk := by
  obtain ⟨x, node, hlaw, -, rfl⟩ := hanswer
  have hfailure : x.failure = none := by
    cases c with
    | start dockerId => exact absurd rfl (hc dockerId)
    | _ => exact hlaw
  rw [respondNode, hfailure]
  exact hserve x _

/-- A call that neither brings a container up, nor records a stop, nor stamps the boot. -/
structure Harmless (c : NodeCall) : Prop where
  mark : ∀ dockerId, c ≠ NodeCall.markDesired dockerId .stopped
  start : ∀ dockerId, c ≠ NodeCall.start dockerId
  restart : ∀ dockerId, c ≠ NodeCall.restart dockerId
  stamp : ∀ runningIds other, c ≠ NodeCall.seedAndStamp runningIds other

theorem Harmless.not_incurs {c : NodeCall} (h : Harmless c) (d : RecoveryDebt)
    (answer : Except AgentError c.Answer) : ¬ (recoveryDebts bootId).incurs d c answer := by
  intro hincurs
  cases d with
  | stop dockerId =>
    obtain hc | ⟨hc, -⟩ | hc := hincurs
    · exact h.mark dockerId hc
    · exact h.start dockerId hc
    · exact h.restart dockerId hc
  | stamp =>
    obtain ⟨runningIds, other, hc, -⟩ := hincurs
    exact h.stamp runningIds other hc

theorem incurs_start (h : (recoveryDebts bootId).incurs d (NodeCall.start dockerId) answer) :
    d = .stop dockerId ∧ answer.isOk := by
  cases d with
  | stop other =>
    obtain hc | ⟨hc, hok⟩ | hc := h
    · cases hc
    · obtain rfl : dockerId = other := NodeCall.start.inj hc
      exact ⟨rfl, hok⟩
    · cases hc
  | stamp =>
    obtain ⟨runningIds, other, hc, -⟩ := h
    cases hc

theorem incurs_mark
    (h : (recoveryDebts bootId).incurs d (NodeCall.markDesired dockerId .stopped) answer) :
    d = .stop dockerId := by
  cases d with
  | stop other =>
    obtain hc | ⟨hc, -⟩ | hc := h
    · rw [(NodeCall.markDesired.inj hc).1]
    · cases hc
    · cases hc
  | stamp =>
    obtain ⟨runningIds, other, hc, -⟩ := h
    cases hc

theorem solvent_await {c : NodeCall} (hc : Harmless c) :
    Solvent (recoveryDebts bootId) (await c) :=
  Solvent.ask fun d answer _ ↦ hc.not_incurs d answer

theorem owes_stop : Owes (recoveryDebts bootId) (.stop dockerId)
    (stopContainerWithoutRecord dockerId) :=
  (Owes.ask fun _ _ ↦ rfl).settle.bind

theorem solvent_stopWithoutRecord : Solvent (recoveryDebts bootId)
    (stopContainerWithoutRecord dockerId) := by
  apply Solvent.tryCatch (solvent_await (by constructor <;> simp))
  intro e
  split
  · trivial
  · split <;> trivial

/-- After a start, something that settles the debt has to follow. -/
theorem solvent_start {α : Type} {f : Unit → NodeProgram α}
    (howes : Owes (recoveryDebts bootId) (.stop dockerId) (f ()))
    (hf : Solvent (recoveryDebts bootId) (f ())) :
    Solvent (recoveryDebts bootId)
      (startContainerWithoutRecord dockerId >>= f) := by
  intro answer _
  cases answer with
  | ok a =>
    refine ⟨fun d hincurs ↦ .inr ?_, hf⟩
    obtain ⟨rfl, -⟩ := incurs_start hincurs
    exact howes
  | error e =>
    refine ⟨fun d hincurs ↦ ?_, ?_⟩
    · obtain ⟨-, hok⟩ := incurs_start hincurs
      cases hok
    · have hhandled : Solvent (recoveryDebts bootId) ((if e.statusCode ≠ some 304 then
          Program.throw ⟨"Failed to start container " ++ dockerId ++ ": " ++ e.message, none⟩
        else Program.pure ()) >>= f) := by
        split
        · trivial
        · exact hf
      exact hhandled

theorem solvent_startContainer (henabled : store.enabled) :
    Solvent (recoveryDebts bootId) (ContainerManager.startContainer store dockerId) := by
  apply solvent_start
  · rw [mark_enabled henabled]
    exact Owes.ask fun _ _ ↦ ⟨rfl, rfl⟩
  · exact Solvent.onlyIf (solvent_await (by constructor <;> simp))

theorem solvent_stopContainer (henabled : store.enabled) :
    Solvent (recoveryDebts bootId) (ContainerManager.stopContainer store dockerId) := by
  rw [ContainerManager.stopContainer, mark_enabled henabled]
  intro answer hanswer
  cases answer with
  | ok a =>
    refine ⟨fun d hincurs ↦ .inr ?_, solvent_stopWithoutRecord⟩
    obtain rfl := incurs_mark hincurs
    exact owes_stop
  | error e =>
    have hok := isOk_answer hanswer (fun _ _ ↦ rfl) (by simp)
    cases hok

theorem solvent_removeContainer {force : Bool} :
    Solvent (recoveryDebts bootId) (ContainerManager.removeContainer store dockerId force) := by
  apply Solvent.bind
  · apply Solvent.tryCatch (solvent_await (by constructor <;> simp))
    intro e
    split <;> trivial
  · exact fun _ ↦ Solvent.onlyIf (solvent_await (by constructor <;> simp))

theorem solvent_read : Solvent (recoveryDebts bootId) store.read := by
  by_cases henabled : store.enabled
  · rw [read_enabled henabled]
    exact solvent_await (by constructor <;> simp)
  · have hread : store.read = .pure none := if_neg henabled
    rw [hread]
    trivial

theorem solvent_get : Solvent (recoveryDebts bootId) (store.get dockerId) :=
  solvent_read.bind fun _ ↦ trivial

open DesiredStateRecovery

theorem solvent_startChecked (henabled : store.enabled) :
    Solvent (recoveryDebts bootId) (startChecked store dockerId) := by
  apply solvent_start
  · rw [DesiredStateStore.get, read_enabled henabled]
    intro answer hanswer
    cases answer with
    | ok state =>
      by_cases hstopped : Option.bind state (·.containers.lookup dockerId) = some .stopped
      · right
        have hagain : Owes (recoveryDebts bootId) (.stop dockerId)
            (if Option.bind state (·.containers.lookup dockerId) = some .stopped then do
              stopContainerWithoutRecord dockerId
              Program.pure RecoveryOutcome.stoppedDuringStart
            else .pure .started) := by
          rw [if_pos hstopped]
          exact owes_stop.bind
        exact hagain
      · exact .inl hstopped
    | error e =>
      have hok := isOk_answer hanswer (fun _ _ ↦ rfl) (by simp)
      cases hok
  · apply solvent_get.bind
    intro desired
    split
    · exact solvent_stopWithoutRecord.bind fun _ ↦ trivial
    · trivial

theorem solvent_recoverOne (henabled : store.enabled) :
    Solvent (recoveryDebts bootId) (recoverOne config store dockerId) := by
  apply solvent_get.bind
  intro desired
  split
  · trivial
  · apply (solvent_await (by constructor <;> simp)).settle.bind
    intro inspected
    cases inspected with
    | error e =>
      dsimp only
      split
      · exact Solvent.bind (Solvent.onlyIf (solvent_await (by constructor <;> simp))) fun _ ↦ trivial
      · trivial
    | ok info =>
      have hbroker : Solvent (recoveryDebts bootId) (brokerIsBound info) := by
        unfold brokerIsBound
        dsimp only
        split
        · split
          · exact solvent_await (by constructor <;> simp)
          · trivial
        · trivial
      have hnetwork : Solvent (recoveryDebts bootId) (networkIsReady config dockerId info) := by
        unfold networkIsReady
        split
        · trivial
        · split
          · trivial
          · split
            · trivial
            · exact Solvent.bind (solvent_await (by constructor <;> simp)) fun _ ↦ trivial
      dsimp only
      unfold recoverInspected
      split
      · trivial
      · split
        · trivial
        · apply hbroker.bind
          intro bound
          split
          · trivial
          · apply hnetwork.bind
            intro ready
            split
            · trivial
            · exact solvent_startChecked henabled

theorem solvent_worker {α : Type} {work : String → NodeProgram α}
    (hwork : ∀ item, Solvent (recoveryDebts bootId) (work item)) (count : Nat) :
    Solvent (recoveryDebts bootId) (worker work count) := by
  induction count with
  | zero => trivial
  | succ count ih =>
    apply Solvent.bind (solvent_await (by constructor <;> simp))
    intro item
    cases item with
    | none => trivial
    | some item => exact (hwork item).bind fun _ ↦ ih.bind fun _ ↦ trivial

variable {currentBoot : String}

theorem solvent_recoverCandidates (henabled : store.enabled) :
    Solvent (recoveryDebts bootId) (recoverCandidates config store recorded currentBoot) := by
  unfold recoverCandidates
  split
  · apply Solvent.bind (solvent_await (by constructor <;> simp))
    intro _
    apply Solvent.bind
    · apply Solvent.allSettled
      · exact @Harmless.not_incurs bootId NodeCall.turn (by constructor <;> simp)
      · intro task htask
        rw [List.eq_of_mem_replicate htask]
        exact solvent_worker (fun item ↦ (solvent_recoverOne henabled).settle) _
    · exact fun _ ↦ trivial
  · trivial

/-- The boot that a task reads is the host's. -/
theorem eq_of_answers_readBootId
    (h : (recoveryTerms bootId).answers NodeCall.readBootId (.ok currentBoot)) :
    currentBoot = bootId := by
  obtain ⟨x, node, hlaw, hboot, hanswer⟩ := h
  have hfailure : x.failure = none := hlaw
  rw [respondNode, hfailure] at hanswer
  exact (Except.ok.inj hanswer).trans hboot

theorem solvent_recoverDesiredState (henabled : store.enabled) :
    Solvent (recoveryDebts bootId) (recoverDesiredState config store) := by
  unfold recoverDesiredState
  rw [if_pos henabled]
  apply Solvent.tryCatch
  · apply Solvent.ask_bind
    · intro d answer _
      exact @Harmless.not_incurs bootId NodeCall.readBootId (by constructor <;> simp) d answer
    intro currentBoot hboot
    apply solvent_read.bind
    intro recorded
    apply Solvent.bind (solvent_await (by constructor <;> simp))
    intro managed
    apply (solvent_recoverCandidates henabled).bind
    intro outcomes
    apply Solvent.bind
    · apply Solvent.onlyIf
      apply Solvent.ask
      intro d answer _ hincurs
      cases d with
      | stop dockerId => rcases hincurs with hc | ⟨hc, -⟩ | hc <;> cases hc
      | stamp =>
        obtain ⟨runningIds, other, hc, hother⟩ := hincurs
        obtain ⟨-, rfl⟩ := NodeCall.seedAndStamp.inj hc
        exact hother (eq_of_answers_readBootId hboot)
    · exact fun _ ↦ trivial
  · exact fun _ ↦ trivial

/-- A call that the node carries out whenever nothing fails does not throw. -/
theorem not_answers_error {c : NodeCall} (hserve : ∀ x node, (serve x c node).1.isOk)
    (hc : ∀ dockerId, c ≠ NodeCall.start dockerId) (e : AgentError) :
    ¬ (recoveryTerms bootId).answers c (.error e) := by
  intro hanswer
  have hok := isOk_answer hanswer hserve hc
  cases hok

theorem returns_recoverCandidates :
    Returns (recoveryTerms bootId) (recoverCandidates config store recorded currentBoot) := by
  unfold recoverCandidates
  split
  · apply Returns.bind (Returns.ask (not_answers_error (fun _ _ ↦ rfl) (by simp)))
    intro _
    exact (Returns.allSettled _).bind fun _ ↦ trivial
  · trivial

theorem owes_seedAndStamp (henabled : store.enabled) (runningIds : List String) :
    Owes (recoveryDebts bootId) .stamp (store.seedAndStamp runningIds bootId) := by
  rw [stamp_enabled henabled]
  exact Owes.ask fun _ _ ↦ ⟨runningIds, rfl⟩

/-- Recovery stamps the boot at its end, whatever becomes of the containers. -/
theorem owes_recoverDesiredState (henabled : store.enabled) :
    Owes (recoveryDebts bootId) .stamp (recoverDesiredState config store) := by
  unfold recoverDesiredState
  rw [if_pos henabled]
  apply Owes.bind
  apply Owes.settle
  apply Owes.ask_bind (not_answers_error (fun _ _ ↦ rfl) (by simp))
  intro currentBoot hboot
  rw [read_enabled henabled]
  apply Returns.owes (Returns.ask (not_answers_error (fun _ _ ↦ rfl) (by simp)))
  intro recorded
  apply Returns.owes (Returns.ask (not_answers_error (fun _ _ ↦ rfl) (by simp)))
  intro managed
  apply Returns.owes returns_recoverCandidates
  intro outcomes
  apply Owes.bind
  obtain rfl := eq_of_answers_readBootId hboot
  exact owes_seedAndStamp henabled _

end Tasks

end PrivosCluster.Agent
