import PrivosCluster.Agent.LifecycleSpec

/-!
# Rolling redeployments that fail

The old container is stopped once the new one is healthy, and a failure after that takes the new one
down as well.
-/

namespace PrivosCluster.AgentHost

open AsyncProgram Agent Routing DockerStateMapper LifecycleService List HostCall Option

variable {law : HostCall → HostChoice → Prop} {config : HostConfig} {platform : HostPlatform}
  {host host₁ host' : Host} {containerId dockerId id : String} {req : RedeployRequest}
  {workspaceId : Option String} {calls calls' : List (HostCall × HostChoice)} {x : HostChoice}

/-! ## Running containers -/

/-- The container has the id, and it is running. -/
def Host.Runs (host : Host) (containerId dockerId : String) : Prop :=
  ∃ container, host.containers.lookup dockerId = some container ∧
    mapState container.status = .running ∧
    container.labels.lookup "privos.id" = some containerId

theorem runs_congr (h : host'.containers = host.containers) :
    host'.Runs containerId id ↔ host.Runs containerId id := by
  rw [Host.Runs, Host.Runs, h]

theorem runs_of_lookup (h : host'.containers.lookup id = host.containers.lookup id) :
    host'.Runs containerId id ↔ host.Runs containerId id := by
  rw [Host.Runs, Host.Runs, h]

theorem isUp_of_running {status : DockerStatus} (h : mapState status = .running) :
    status.isUp := by
  cases status <;> first | rfl | cases h

theorem runs_stop : (respondHost (.stop dockerId) x host).2.Runs containerId id ↔
    host.Runs containerId id ∧ ¬ (x.done ∧ id = dockerId) := by
  rw [respondHost_snd]
  by_cases hdone : x.done
  swap
  · simp [hdone]
  simp only [hdone, if_true, true_and, serve]
  by_cases hid : id = dockerId
  swap
  · rw [and_iff_left hid]
    split
    · rfl
    · split
      · exact runs_of_lookup (AList.lookup_insert_ne hid)
      · rfl
  · subst hid
    simp only [not_true, and_false, iff_false]
    split
    next hnone =>
      rintro ⟨container, hfound, -⟩
      rw [hnone] at hfound
      cases hfound
    next container hfound =>
      split
      next hup =>
        rintro ⟨container', hfound', hrunning, -⟩
        rw [Host.put, AList.lookup_insert] at hfound'
        obtain rfl := some.inj hfound'
        cases hrunning
      next hdown =>
        rintro ⟨container', hfound', hrunning, -⟩
        obtain rfl := some.inj (hfound.symm.trans hfound')
        exact hdown (isUp_of_running hrunning)

theorem runs_remove : (respondHost (.remove dockerId true) x host).2.Runs containerId id ↔
    host.Runs containerId id ∧ ¬ (x.done ∧ id = dockerId) := by
  rw [Host.Runs, lookup_remove]
  split
  next h => simp [h]
  next h => rw [and_iff_left h, Host.Runs]

theorem runs_start_ne (h : id ≠ dockerId) :
    (respondHost (.start dockerId) x host).2.Runs containerId id ↔ host.Runs containerId id := by
  apply runs_of_lookup
  apply unchanged fun host ↦ host.containers.lookup id
  simp only [serve]
  split
  · rfl
  · split
    · rfl
    · split
      · rfl
      · exact AList.lookup_insert_ne h

variable {request : ContainerRequest} {r : Except HostError DockerState.Found}
  {container : HostContainer}

/-- A container that is created does not run yet. -/
theorem runs_put_created (hfresh : x.dockerId ∉ host.containers) :
    (host.put x.dockerId (created request x)).Runs containerId id ↔ host.Runs containerId id := by
  by_cases hid : id = x.dockerId
  · subst hid
    apply iff_of_false
    · rintro ⟨container, hfound, hrunning, -⟩
      rw [Host.put, AList.lookup_insert] at hfound
      obtain rfl := some.inj hfound
      cases hrunning
    · rintro ⟨container, hfound, -⟩
      rw [AList.lookup_eq_none.mpr hfresh] at hfound
      cases hfound
  · exact runs_of_lookup (AList.lookup_insert_ne hid)

/-- A container with the id is running. -/
def Serving (host : Host) (containerId : String) : Prop :=
  ∃ dockerId, host.Runs containerId dockerId

/-- A container that ran before was not stopped, or the new one was started and neither stopped nor
removed. -/
def Unstopped (host : Host) (containerId : String) (calls : List (HostCall × HostChoice)) : Prop :=
  (∃ dockerId, host.Runs containerId dockerId ∧ ¬ Took (.stop dockerId) calls) ∨
    ∃ request x, (.createContainer request, x) ∈ calls ∧ Took (.start x.dockerId) calls ∧
      ¬ Took (.stop x.dockerId) calls ∧ ¬ Took (.remove x.dockerId true) calls

/-- A failure is accounted for by what was stopped and removed. -/
def Weighed (host : Host) (containerId : String) (r : Except HostError DockerState.Found)
    (host' : Host) (calls : List (HostCall × HostChoice)) : Prop :=
  ∀ e, r = .error e → (Serving host' containerId ↔ Unstopped host containerId calls)

/-- While the old container runs unstopped, nothing is to be weighed. -/
theorem weighed_of_runs (hold : host.Runs containerId dockerId)
    (hruns : host'.Runs containerId dockerId) (hunstopped : ¬ Took (.stop dockerId) calls) :
    Weighed host containerId r host' calls :=
  fun _ _ ↦ iff_of_true ⟨dockerId, hruns⟩ (.inl ⟨dockerId, hold, hunstopped⟩)

theorem took_of_idle {c : HostCall} (hidle : ∀ event ∈ calls, event.1.idle)
    (hc : c.idle = false) : Took c (calls ++ calls') ↔ Took c calls' := by
  rw [took_append, or_iff_right]
  apply not_took (P := fun c ↦ c.idle) hidle
  simp [hc]

theorem unstopped_of_idle (hsame : host₁.containers = host.containers)
    (hidle : ∀ event ∈ calls, event.1.idle) :
    Unstopped host containerId (calls ++ calls') ↔ Unstopped host₁ containerId calls' := by
  have hcreate : ∀ request x, (HostCall.createContainer request, x) ∈ calls ++ calls' ↔
      (HostCall.createContainer request, x) ∈ calls' := by
    intro request x
    rw [mem_append, or_iff_right]
    intro hmem
    cases hidle _ hmem
  simp only [Unstopped, runs_congr hsame, hcreate, took_of_idle hidle (c := .stop _) (by rfl),
    took_of_idle hidle (c := .start _) (by rfl), took_of_idle hidle (c := .remove _ _) (by rfl)]

/-- What is idle at the start changes nothing. -/
theorem Weighed.after (h : Weighed host₁ containerId r host' calls')
    (hsame : host₁.containers = host.containers) (hidle : ∀ event ∈ calls, event.1.idle) :
    Weighed host containerId r host' (calls ++ calls') := by
  intro e he
  rw [unstopped_of_idle hsame hidle]
  exact h e he

theorem weighed_of_idle (hsame : host'.containers = host.containers)
    (hidle : ∀ event ∈ calls, event.1.idle) : Weighed host containerId r host' calls := by
  intro e _
  have hnil : Unstopped host containerId calls ↔ Unstopped host' containerId [] := by
    have h : Unstopped host containerId (calls ++ []) ↔ Unstopped host' containerId [] :=
      unstopped_of_idle hsame hidle
    rwa [append_nil] at h
  rw [hnil]
  constructor
  · exact fun ⟨dockerId, hruns⟩ ↦ .inl ⟨dockerId, hruns, not_took_nil⟩
  · rintro (⟨dockerId, hruns, -⟩ | ⟨_, _, hmem, -⟩)
    · exact ⟨dockerId, hruns⟩
    · cases hmem

theorem traces_idle {α : Type} {p : HostProgram α} (hp : Idle p) :
    Traces (hostMachine law) (fun _ host' calls ↦ host'.containers = host.containers ∧
      ∀ event ∈ calls, event.1.idle) p host :=
  traces_keeping Host.containers hp fun _ _ _ hc ↦ containers_respond (moves_of_idle hc).1

/-! ## Taking over -/

/-- A container that was created is up once its start has succeeded. -/
theorem runs_of_start (hfound : host.containers.lookup dockerId = some container)
    (hdown : container.status.isUp = false)
    (hid : container.labels.lookup "privos.id" = some containerId)
    (hsettled : Settled (α := Unit) x (Refuses (.start dockerId) host x) (.ok ())) :
    (respondHost (.start dockerId) x host).2.Runs containerId dockerId := by
  obtain ⟨hnone, haccepted⟩ := hsettled
  rw [respondHost_of_none hnone]
  simp only [serve, hfound, hdown, Bool.false_eq_true, if_false]
  split
  next hnetwork =>
    refine absurd ⟨noSuch "network", ?_, rfl⟩ haccepted
    simp only [serve, hfound, hdown, Bool.false_eq_true, if_false, if_pos hnetwork]
  next => exact ⟨_, AList.lookup_insert _, rfl, hid⟩

theorem traces_startContainer
    {Q : Except HostError Unit → Host → List (HostCall × HostChoice) → Prop}
    (h : ∀ x r, (hostMachine law).permits (.start dockerId) x host →
      Settled x (Refuses (.start dockerId) host x) r →
      Q r (respondHost (.start dockerId) x host).2 [(.start dockerId, x)]) :
    Traces (hostMachine law) Q (ContainerManager.startContainer dockerId) host := by
  apply traces_settling (c := .start dockerId) (a := ()) (w := "start container " ++ dockerId) _ h
  intro e
  cases hstatus : e.statusCode <;> simp [settles, settledBy, hstatus]

/-- Of the containers with the id, those that were stopped run no more. -/
def Quenched (containerId : String) (host host' : Host) (calls : List (HostCall × HostChoice)) :
    Prop :=
  ∀ id, host'.Runs containerId id ↔ host.Runs containerId id ∧ ¬ Took (.stop id) calls

theorem Quenched.trans (h : Quenched containerId host host₁ calls)
    (h' : Quenched containerId host₁ host' calls') :
    Quenched containerId host host' (calls ++ calls') := by
  intro id
  rw [h' id, h id, took_append, not_or, and_assoc]

section Quenched

variable {α β : Type} {p : HostProgram α} {f : α → HostProgram β}

theorem quenched_bind (hp : Traces (hostMachine law) (fun _ ↦ Quenched containerId host) p host)
    (hf : ∀ a host, Traces (hostMachine law) (fun _ ↦ Quenched containerId host) (f a) host) :
    Traces (hostMachine law) (fun _ ↦ Quenched containerId host) (p >>= f) host := by
  apply hp.bind
  · intro a host₁ calls h
    exact (hf a host₁).imp fun _ _ _ h' ↦ h.trans h'
  · exact fun _ _ _ h ↦ h

theorem quenched_of_idle (hp : Idle p) :
    Traces (hostMachine law) (fun _ ↦ Quenched containerId host) p host := by
  apply (traces_idle hp).imp
  rintro _ host' calls ⟨hsame, hidle⟩ id
  rw [runs_congr hsame, and_iff_left]
  apply not_took (P := fun c ↦ c.idle) hidle
  simp [HostCall.idle, movesContainers]

end Quenched

/-- The old container is removed once it is stopped, and left otherwise. -/
theorem traces_retire : Traces (hostMachine law) (fun _ ↦ Quenched containerId host)
    (Program.tryCatch (ContainerManager.stopContainer dockerId >>= fun _ ↦
      ContainerManager.removeContainer dockerId true) fun _ ↦ .pure ()) host := by
  have htook : ∀ {x : HostChoice} {id : String} {calls : List (HostCall × HostChoice)},
      (∀ event ∈ calls, event.1 = .remove dockerId true) →
      (Took (.stop id) ((.stop dockerId, x) :: calls) ↔ x.done ∧ id = dockerId) := by
    intro x id calls hcalls
    have hother : HostCall.stop id ≠ .remove dockerId true := nofun
    rw [took_cons, or_iff_left (not_took (P := (· = .remove dockerId true)) hcalls hother)]
    simp only [HostCall.stop.injEq]
    rw [and_comm, eq_comm (a := id)]
  have hstop : Traces (hostMachine law) (fun r host' calls ↦ ∃ x,
      host' = (respondHost (.stop dockerId) x host).2 ∧ calls = [(.stop dockerId, x)] ∧
        (r = .ok () → x.done)) (ContainerManager.stopContainer dockerId) host := by
    apply traces_stopContainer
    intro x r _ hsettled
    refine ⟨x, rfl, rfl, ?_⟩
    rintro rfl
    exact done_of_none hsettled.1
  have hleft : ∀ x, ∀ id, (respondHost (.stop dockerId) x host).2.Runs containerId id ↔
      host.Runs containerId id ∧ ¬ Took (.stop id) [(.stop dockerId, x)] := by
    intro x id
    rw [runs_stop, htook (by simp)]
  apply Traces.tryCatch
  apply hstop.bind
  · rintro _ _ _ ⟨x, rfl, rfl, hdone⟩
    apply traces_removeContainer
    intro y r _ _
    have hgone : ∀ id, (host.discard dockerId x y).Runs containerId id ↔
        host.Runs containerId id ∧
          ¬ Took (.stop id) [(.stop dockerId, x), (.remove dockerId true, y)] := by
      intro id
      rw [runs_remove, runs_stop, htook (by simp)]
      tauto
    cases r with
    | ok _ => exact hgone
    | error e => exact hgone
  · rintro e _ _ ⟨x, rfl, rfl, -⟩
    exact hleft x

/-- The calls while the new container takes over. -/
def TakeOverCall (old new : String) (c : HostCall) : Prop :=
  c.idle = true ∨ c = .start new ∨ c = .stop old ∨ c = .remove old true

/-- The old container is stopped only once the new one runs. -/
structure TakingOver (containerId old new : String) (host host' : Host)
    (calls : List (HostCall × HostChoice)) : Prop where
  kept : ∀ id, id ≠ new →
    (host'.Runs containerId id ↔ host.Runs containerId id ∧ ¬ Took (.stop id) calls)
  started : Took (.stop old) calls → Took (.start new) calls ∧ host'.Runs containerId new
  asked : ∀ event ∈ calls, TakeOverCall old new event.1

variable {old : DockerState.Found}

theorem asks_takeOver :
    Asks (TakeOverCall old.dockerId dockerId)
      (takeOver config containerId workspaceId old dockerId) := by
  apply Asks.bind (asks_startContainer (.inr (.inl rfl)))
  intro _
  apply Asks.bind (idle_getInternalUrl.imp fun _ ↦ .inl)
  intro _
  apply Asks.bind (asks_await (.inl rfl))
  intro (healthy : Bool)
  apply Asks.bind Asks.throwIf
  intro _
  apply Asks.bind
  · apply Asks.tryCatch
    · apply Asks.bind (asks_stopContainer (.inr (.inr (.inl rfl))))
      intro _
      exact asks_removeContainer (.inr (.inr (.inr rfl)))
    · exact fun _ ↦ trivial
  intro _
  apply Asks.bind (blind_getById.idle.imp fun _ ↦ .inl)
  intro found
  cases found <;> trivial

/-- After the start containers are only stopped and removed. -/
theorem traces_takeOver (hnew : old.dockerId ≠ dockerId)
    (hfound : host.containers.lookup dockerId = some container)
    (hdown : container.status.isUp = false)
    (hid : container.labels.lookup "privos.id" = some containerId) :
    Traces (hostMachine law)
      (fun _ host' calls ↦ TakingOver containerId old.dockerId dockerId host host' calls)
      (takeOver config containerId workspaceId old dockerId) host := by
  have hstops : Traces (hostMachine law) (fun _ host' calls ↦
      (∀ id, id ≠ dockerId →
        (host'.Runs containerId id ↔ host.Runs containerId id ∧ ¬ Took (.stop id) calls)) ∧
      (Took (.stop old.dockerId) calls → Took (.start dockerId) calls ∧
        (¬ Took (.stop dockerId) calls → host'.Runs containerId dockerId)))
      (takeOver config containerId workspaceId old dockerId) host := by
    have hstarted : ∀ {x : HostChoice} {calls : List (HostCall × HostChoice)} {id : String},
        Took (.stop id) ((.start dockerId, x) :: calls) ↔ Took (.stop id) calls := by
      intro x calls id
      rw [took_cons, or_iff_right]
      rintro ⟨h, -⟩
      cases h
    have hstart : Traces (hostMachine law) (fun r host' calls ↦ ∃ x,
        host' = (respondHost (.start dockerId) x host).2 ∧ calls = [(.start dockerId, x)] ∧
          (r = .ok () → x.done ∧ host'.Runs containerId dockerId))
        (ContainerManager.startContainer dockerId) host := by
      apply traces_startContainer
      intro x r _ hsettled
      refine ⟨x, rfl, rfl, ?_⟩
      rintro rfl
      exact ⟨done_of_none hsettled.1, runs_of_start hfound hdown hid hsettled⟩
    apply hstart.bind
    · rintro _ host₁ _ ⟨x, rfl, rfl, hok⟩
      obtain ⟨hdone, hruns⟩ := hok rfl
      apply Traces.imp (Q := fun _ ↦ Quenched containerId (respondHost (.start dockerId) x host).2)
      · apply quenched_bind (quenched_of_idle idle_getInternalUrl)
        intro _ _
        apply quenched_bind (quenched_of_idle (asks_await (by rfl)))
        intro (healthy : Bool) _
        apply quenched_bind (quenched_of_idle Asks.throwIf)
        intro _ _
        apply quenched_bind traces_retire
        intro _ _
        apply quenched_bind (quenched_of_idle blind_getById.idle)
        intro found _
        apply quenched_of_idle
        cases found <;> trivial
      · intro r host' calls hquenched
        constructor
        · intro id hne
          rw [singleton_append, hstarted, hquenched id, runs_start_ne hne]
        · rw [singleton_append, hstarted, hstarted]
          intro _
          apply And.intro ⟨x, mem_cons_self, hdone⟩
          exact fun hleft ↦ (hquenched dockerId).mpr ⟨hruns, hleft⟩
    · rintro e host₁ _ ⟨x, rfl, rfl, -⟩
      rw [hstarted]
      refine ⟨fun id hne ↦ ?_, fun h ↦ absurd h not_took_nil⟩
      rw [hstarted, runs_start_ne hne, and_iff_left not_took_nil]
  apply (hstops.and (asks_takeOver.traces host)).imp
  rintro r host' calls ⟨⟨hkept, hstarted⟩, hasked⟩
  refine ⟨hkept, fun hstopped ↦ ?_, hasked⟩
  obtain ⟨hstart, hruns⟩ := hstarted hstopped
  apply And.intro hstart
  apply hruns
  apply not_took (P := TakeOverCall old.dockerId dockerId) hasked
  simp [TakeOverCall, HostCall.idle, movesContainers, Ne.symm hnew]

/-! ## Failures -/

section Failures

variable {old new : String} {host₂ : Host} {y : HostChoice}

theorem TakingOver.not_took (h : TakingOver containerId old new host₁ host₂ calls)
    (hnew : old ≠ new) :
    ¬ Took (.stop new) calls ∧ ¬ Took (.remove new true) calls ∧
      ∀ request z, (.createContainer request, z) ∉ calls := by
  have hnot : ∀ {c : HostCall}, ¬ TakeOverCall old new c → ¬ Took c calls :=
    fun hc ↦ AgentHost.not_took (P := TakeOverCall old new) h.asked hc
  have hne := Ne.symm hnew
  constructor
  · apply hnot
    simp [TakeOverCall, HostCall.idle, movesContainers, hne]
  constructor
  · apply hnot
    simp [TakeOverCall, HostCall.idle, movesContainers, hne]
  · intro request z hmem
    have hcall := h.asked _ hmem
    simp [TakeOverCall, HostCall.idle, movesContainers] at hcall

/-- The calls of a redeployment that failed after the creation. -/
def failedCalls (request : ContainerRequest) (created u i x y : HostChoice)
    (calls : List (HostCall × HostChoice)) : List (HostCall × HostChoice) :=
  (.randomUUID, u) :: (.createContainer request, created) :: (.inspect created.dockerId, i) ::
    (calls ++ [(.stop created.dockerId, x), (.remove created.dockerId true, y)])

theorem took_failedCalls {created u i : HostChoice} :
    (∀ id, Took (.stop id) (failedCalls request created u i x y calls) ↔
      Took (.stop id) calls ∨ created.dockerId = id ∧ x.done) ∧
    (∀ id, Took (.start id) (failedCalls request created u i x y calls) ↔ Took (.start id) calls) ∧
    ∀ id, Took (.remove id true) (failedCalls request created u i x y calls) ↔
      Took (.remove id true) calls ∨ created.dockerId = id ∧ y.done := by
  simp [failedCalls, took_cons, took_append, not_took_nil]

/-- Once the old container is stopped, all depends on the removal of the new one. -/
theorem TakingOver.weighed {created u i : HostChoice} (hold : host.Runs containerId old)
    (hfresh : created.dockerId ∉ host.containers)
    (hsame : ∀ id, host₁.Runs containerId id ↔ host.Runs containerId id)
    (h : TakingOver containerId old created.dockerId host₁ host₂ calls) :
    Weighed host containerId r
      (respondHost (.remove created.dockerId true) y
        (respondHost (.stop created.dockerId) x host₂).2).2
      (failedCalls request created u i x y calls) := by
  intro e _
  have hnew : ∀ id, host.Runs containerId id → id ≠ created.dockerId := by
    rintro _ ⟨container, hfound, -⟩ rfl
    rw [AList.lookup_eq_none.mpr hfresh] at hfound
    cases hfound
  have htook : (∀ id, Took (.stop id) (failedCalls request created u i x y calls) ↔
        Took (.stop id) calls ∨ created.dockerId = id ∧ x.done) ∧
      (∀ id, Took (.start id) (failedCalls request created u i x y calls) ↔
        Took (.start id) calls) ∧
      ∀ id, Took (.remove id true) (failedCalls request created u i x y calls) ↔
        Took (.remove id true) calls ∨ created.dockerId = id ∧ y.done := took_failedCalls
  obtain ⟨hstop, hstart, hremove⟩ := htook
  obtain ⟨hunstopped, hunremoved, huncreated⟩ := h.not_took (hnew old hold)
  have hruns : ∀ id, (respondHost (.remove created.dockerId true) y
      (respondHost (.stop created.dockerId) x host₂).2).2.Runs containerId id ↔
      host₂.Runs containerId id ∧
        (id = created.dockerId → ¬ x.done ∧ ¬ y.done) := by
    intro id
    rw [runs_remove, runs_stop]
    tauto
  have hearlier : ∀ id, id ≠ created.dockerId → (host₂.Runs containerId id ↔
      host.Runs containerId id ∧
        ¬ Took (.stop id) (failedCalls request created u i x y calls)) := by
    intro id hne
    rw [h.kept id hne, hsame, hstop, or_iff_left]
    exact fun hid ↦ hne hid.1.symm
  by_cases hstopped : Took (.stop old) calls
  · obtain ⟨hstarted, hup⟩ := h.started hstopped
    constructor
    · rintro ⟨id, hid⟩
      obtain ⟨hid, hleft⟩ := (hruns id).mp hid
      by_cases hne : id = created.dockerId
      · right
        obtain ⟨hx, hy⟩ := hleft hne
        refine ⟨request, created, by simp [failedCalls], (hstart _).mpr hstarted, ?_, ?_⟩
        · rw [hstop]
          exact not_or.mpr ⟨hunstopped, fun h ↦ hx h.2⟩
        · rw [hremove]
          exact not_or.mpr ⟨hunremoved, fun h ↦ hy h.2⟩
      · exact .inl ⟨id, (hearlier id hne).mp hid⟩
    · rintro (⟨id, hid, hleft⟩ | ⟨request', z, hmem, -, hx, hy⟩)
      · have hne := hnew id hid
        exact ⟨id, (hruns id).mpr ⟨(hearlier id hne).mpr ⟨hid, hleft⟩, fun h ↦ absurd h hne⟩⟩
      · have hcreated : z = created := by
          simp only [failedCalls, mem_cons, mem_append, Prod.mk.injEq, reduceCtorEq,
            false_and, false_or, or_false, not_mem_nil, huncreated,
            HostCall.createContainer.injEq] at hmem
          exact hmem.2
        subst hcreated
        rw [hstop, not_or] at hx
        rw [hremove, not_or] at hy
        refine ⟨z.dockerId, (hruns _).mpr ⟨hup, fun _ ↦ ⟨?_, ?_⟩⟩⟩
        · exact fun hdone ↦ hx.2 ⟨rfl, hdone⟩
        · exact fun hdone ↦ hy.2 ⟨rfl, hdone⟩
  · have hne := hnew old hold
    have hleft : ¬ Took (.stop old) (failedCalls request created u i x y calls) := by
      rw [hstop]
      exact not_or.mpr ⟨hstopped, fun h ↦ hne h.1.symm⟩
    apply iff_of_true
    · exact ⟨old, (hruns old).mpr ⟨(hearlier old hne).mpr ⟨hold, hleft⟩, fun h ↦ absurd h hne⟩⟩
    · exact .inl ⟨old, hold, hleft⟩

end Failures

theorem traces_swapRolling (hold : host.Runs containerId old.dockerId) :
    Traces (hostMachine law) (Weighed host containerId)
      (swapRolling config platform containerId req workspaceId old) host := by
  have hbeside : Traces (hostMachine law) (fun r host' calls ↦ ∃ u uuid calls',
      calls = (.randomUUID, u) :: calls' ∧ Creation config platform.toAgentPlatform
        (redeployConfig config platform containerId req old uuid) host r host' calls')
      (createBeside config platform containerId req old) host := by
    apply (traces_await .randomUUID).bind
    · rintro uuid _ _ ⟨u, hu, hanswer, rfl, rfl⟩
      have hhost : (respondHost .randomUUID u host).2 = host := by
        rw [respondHost_of_none (hu.1.2.1 rfl)]
        rfl
      rw [hhost]
      apply traces_createAppContainer.imp
      exact fun r host' calls hcreation ↦ ⟨u, uuid, calls, rfl, hcreation⟩
    · rintro e _ _ ⟨u, hu, hanswer, rfl, rfl⟩
      rw [respondHost_of_none (hu.1.2.1 rfl)] at hanswer
      cases hanswer
  apply hbeside.bind
  · rintro new host₁ _ ⟨u, uuid, _, rfl, hcreation⟩
    cases hcreation with
    | created request z i hz hi hfresh hrequest =>
      have hnew : old.dockerId ≠ z.dockerId := by
        obtain ⟨container, hfound, -⟩ := hold
        rintro heq
        rw [heq, AList.lookup_eq_none.mpr hfresh] at hfound
        cases hfound
      have hid : request.labels.lookup "privos.id" = some containerId :=
        (marks_of_containerRequest hrequest).1
      have hfound : (host.put z.dockerId (created request z)).containers.lookup z.dockerId =
          some (created request z) := AList.lookup_insert _
      have htaken : Traces (hostMachine law)
          (fun _ host' calls ↦ TakingOver containerId old.dockerId z.dockerId
            (host.put z.dockerId (created request z)) host' calls)
          (takeOver config containerId workspaceId old z.dockerId)
          (host.put z.dockerId (created request z)) :=
        traces_takeOver hnew hfound (by rfl) hid
      apply Traces.tryCatch
      apply htaken.imp
      intro r host₂ calls htaking
      cases r with
      | ok _ => exact nofun
      | error e =>
        apply traces_discard
        intro x y _ _
        exact htaking.weighed hold hfresh fun id ↦ runs_put_created hfresh
  · rintro e host₁ _ ⟨u, uuid, _, rfl, hcreation⟩
    cases hcreation with
    | refused => exact weighed_of_runs hold hold (by simp [took_cons, not_took_nil])
    | failed request z _ hz hfresh =>
      apply weighed_of_runs hold
      · rw [respondHost_snd]
        split
        · exact (runs_put_created hfresh).mpr hold
        · exact hold
      · simp [took_cons, not_took_nil]
    | lost request z i _ hz hi hfresh =>
      apply weighed_of_runs hold ((runs_put_created hfresh).mpr hold)
      simp [took_cons, not_took_nil]

/-! ## The checks -/

theorem idle_checkRolling :
    Idle (checkRolling config platform containerId req workspaceId old) := by
  apply Asks.bind
  · apply Asks.bind (asks_await (by rfl))
    intro _
    exact Asks.ofExcept
  intro _
  apply Asks.bind Asks.throwIf
  intro _
  apply Asks.bind blind_assertHostAvailable.idle
  intro _
  apply Asks.bind blind_assertResourceBudget.idle
  intro _
  apply Asks.bind Asks.ofExcept
  intro _
  exact blind_pullImage.idle

theorem traces_checkRolling : Traces (hostMachine law)
    (fun r _ _ ↦ r = .ok () → old.container.state = .running)
    (checkRolling config platform containerId req workspaceId old) host := by
  apply ((Asks.any _).traces _).bind
  · intro _ host₁ _ _
    apply Traces.guard
    · rintro _ ⟨⟩
    · intro hrunning
      apply ((Asks.any _).traces _).imp
      exact fun _ _ _ _ _ ↦ not_not.mp hrunning
  · rintro _ _ _ _ ⟨⟩

theorem traces_rollingRedeployContainer : Traces (hostMachine law) (Weighed host containerId)
    (rollingRedeployContainer config platform containerId req workspaceId) host := by
  apply Traces.guard
  · exact fun _ ↦ weighed_of_idle rfl (by simp)
  intro _
  have hlookup : Traces (hostMachine law) _ (getContainerOr404 config containerId workspaceId) host :=
    traces_getContainerOr404.and (traces_idle blind_getContainerOr404.idle)
  apply hlookup.bind
  · rintro old host asked ⟨⟨rfl, -, hfound⟩, -, hasked⟩
    obtain ⟨hrecord, hcontainer, hcarries⟩ :=
      DockerState.active_of_matching (mem_of_head? (hfound old rfl))
    have hchecked : Traces (hostMachine law) _
        (checkRolling config platform containerId req workspaceId old) host :=
      traces_checkRolling.and (traces_idle idle_checkRolling)
    apply hchecked.bind
    · rintro _ host₁ checked ⟨hrunning, hsame, hchecked⟩
      have hold : host₁.Runs containerId old.dockerId := by
        obtain ⟨fixed, hfixed, hlabels⟩ := hcarries
        obtain ⟨container, hcontainer', rfl⟩ := Option.map_eq_some_iff.mp hfixed
        obtain rfl := some.inj (hrecord.symm.trans hcontainer')
        rw [runs_congr hsame]
        have hid := hlabels ("privos.id", containerId) (by simp [DockerState.scopeLabels])
        have hstate := congrArg Agent.Container.state hcontainer
        exact ⟨old.record, hrecord, hstate.symm.trans (hrunning rfl), hid⟩
      apply (traces_swapRolling hold).imp
      intro r host' calls hweighed
      exact (hweighed.after hsame hchecked).after rfl hasked
    · rintro e host₁ checked ⟨-, hsame, hchecked⟩
      apply weighed_of_idle hsame
      exact fun event hevent ↦ (mem_append.mp hevent).elim (hasked event) (hchecked event)
  · rintro e _ asked ⟨-, hsame, hasked⟩
    exact weighed_of_idle hsame hasked

/-- After a failed redeployment the app is served if a container that served it was not stopped, or
the new one was started and left. -/
theorem serving_iff_unstopped {e : HostError}
    (run : Executes (hostMachine law).traced
      (rollingRedeployContainer config platform containerId req workspaceId) (host, []) (.threw e)
      (host', calls)) :
    Serving host' containerId ↔ Unstopped host containerId calls :=
  Traces.post (r := .error e) traces_rollingRedeployContainer run e rfl

/-! ## A lookup that fails at last -/

namespace Sample

/-- Everything stays as it is. -/
def redeployRequest : RedeployRequest where
  versionDigest := none
  image := none
  tag := none
  digest := none
  resources := none
  subdomain := none
  domain := none
  mcpV3Binding := none
  securityProfile := none

def plainContainer : HostContainer where
  status := .running
  labels := [managedLabel, ("privos.id", "app"), ("privos.workspace", "a")]
  image := "notes"

def plainHost : Host :=
  (emptyHost.put "old" plainContainer).putNetwork "privos-ws-a-apps" ⟨none, []⟩

/-- Docker does not list containers once the old one is gone. -/
def lastLookup (c : HostCall) (host : Host) : HostChoice :=
  match c with
  | .start _ => { obliging host with endpoints := [⟨"privos-ws-a-apps", none, some "10.0.0.2"⟩] }
  | .listContainers _ =>
    if "old" ∈ host.containers then obliging host
    else { obliging host with failure := some { message := "connect ETIMEDOUT" } }
  | _ => obliging host

theorem lastLookup_lawful (c : HostCall) (host : Host) :
    freely.permits c (lastLookup c host) host := by
  cases c
  case listContainers labels =>
    unfold lastLookup
    by_cases hold : "old" ∈ host.containers
    · simp only [hold, if_true]
      exact lawful _ host
    · simp only [hold, if_false]
      exact ⟨⟨rfl, nofun, trivial⟩, trivial⟩
  all_goals exact lawful _ host

def failedRedeployment :
    Except HostError DockerState.Found × Host × List (HostCall × HostChoice) :=
  freely.traced.run (fun c s ↦ lastLookup c s.1)
    (rollingRedeployContainer Sample.config Sample.platform "app" redeployRequest (some "a"))
    (plainHost, [])

theorem redeployment_fails : ∃ e, Executes freely.traced
    (rollingRedeployContainer Sample.config Sample.platform "app" redeployRequest (some "a"))
    (plainHost, []) (.threw e) (failedRedeployment.2.1, failedRedeployment.2.2) :=
  ⟨{ message := "connect ETIMEDOUT" },
    freely.traced.executes_run (fun c s ↦ lastLookup c s.1) (fun c s ↦ lastLookup_lawful c s.1) _ _⟩

end Sample

theorem serving_iff_unstopped_lastLookup :
    Serving Sample.failedRedeployment.2.1 "app" ↔
      Unstopped Sample.plainHost "app" Sample.failedRedeployment.2.2 :=
  serving_iff_unstopped Sample.redeployment_fails.choose_spec

/-- The app is served by a healthy new container when its last lookup fails, and both containers are
gone. -/
theorem lastLookup_unserved : Serving Sample.plainHost "app" ∧ ∃ e host',
    Executes Sample.freely
      (rollingRedeployContainer Sample.config Sample.platform "app" Sample.redeployRequest
        (some "a")) Sample.plainHost (.threw e) host' ∧
      host'.containers = ∅ ∧ ¬ Serving host' "app" := by
  have hbefore : Serving Sample.plainHost "app" := ⟨"old", Sample.plainContainer, rfl, rfl, rfl⟩
  refine ⟨hbefore, _, _,
    Sample.freely.executes_run Sample.lastLookup Sample.lastLookup_lawful _ _, rfl, ?_⟩
  rintro ⟨dockerId, container, hfound, -⟩
  cases hfound

end PrivosCluster.AgentHost
