import PrivosCluster.Agent.BrokerManager

/-!
# What the calls of an agent do to its host

Of a container, labels, network mode and mounts stay as they are for as long as it exists. Each call
changes one part of the host at most.
-/

namespace PrivosCluster.AgentHost

open AsyncProgram Agent Routing List Option

variable {law : HostCall → HostChoice → Prop} {host : Host} {c : HostCall} {x : HostChoice}
  {dockerId id : String}

/-! ## Answers and effects -/

theorem respondHost_of_none (h : x.failure = none) : respondHost c x host = serve x c host := by
  simp [respondHost, h]

theorem respondHost_of_some {e : CallError} (h : x.failure = some e) :
    respondHost c x host =
      (.error { toCallError := e }, if x.effective then (serve x c host).2 else host) := by
  simp [respondHost, h]

theorem respondHost_snd :
    (respondHost c x host).2 = if x.done then (serve x c host).2 else host := by
  cases h : x.failure with
  | none => simp [respondHost_of_none h, HostChoice.done, h]
  | some e => simp [respondHost_of_some h, HostChoice.done, h]

theorem done_of_none (h : x.failure = none) : x.done := by
  simp [HostChoice.done, h]

variable {α : Type} {P : HostCall → Prop} {container : HostContainer} {host' : Host}
  {entry : String × HostContainer} {handler : HostError → HostProgram c.Answer} {p : HostProgram α}
  {other : String}

/-- A call that changes nothing when it is served changes nothing. -/
theorem unchanged (part : Host → α) (h : part (serve x c host).2 = part host) :
    part (respondHost c x host).2 = part host := by
  rw [respondHost_snd]
  split
  · exact h
  · rfl

def HostCall.movesContainers : HostCall → Bool
  | .createContainer _ => true
  | .start _ => true
  | .stop _ => true
  | .remove _ _ => true
  | _ => false

def HostCall.movesVolumes : HostCall → Bool
  | .createVolume _ _ => true
  | .removeVolume _ => true
  | _ => false

def HostCall.movesNetworks : HostCall → Bool
  | .createNetwork _ => true
  | .connectNetwork _ _ => true
  | .disconnectNetwork _ _ => true
  | .removeNetwork _ => true
  | _ => false

def HostCall.movesServers : HostCall → Bool
  | .setServer _ _ => true
  | .close _ => true
  | _ => false

def HostCall.movesFiles : HostCall → Bool
  | .writeStore _ _ => true
  | .writeLegacy _ _ => true
  | .removeStore _ => true
  | .removeDirectory _ => true
  | _ => false

theorem containers_respond (h : c.movesContainers = false) :
    (respondHost c x host).2.containers = host.containers := by
  apply unchanged Host.containers
  cases c <;> simp only [HostCall.movesContainers, Bool.true_eq_false] at h <;>
    simp only [serve] <;> (repeat' split) <;> rfl

theorem volumes_respond (h : c.movesVolumes = false) :
    (respondHost c x host).2.volumes = host.volumes := by
  apply unchanged Host.volumes
  cases c <;> simp only [HostCall.movesVolumes, Bool.true_eq_false] at h <;>
    simp only [serve] <;> (repeat' split) <;> rfl

theorem networks_respond (h : c.movesNetworks = false) :
    (respondHost c x host).2.networks = host.networks := by
  apply unchanged Host.networks
  cases c <;> simp only [HostCall.movesNetworks, Bool.true_eq_false] at h <;>
    simp only [serve] <;> (repeat' split) <;> rfl

theorem servers_respond (h : c.movesServers = false) :
    (respondHost c x host).2.servers = host.servers := by
  apply unchanged Host.servers
  cases c <;> simp only [HostCall.movesServers, Bool.true_eq_false] at h <;>
    simp only [serve] <;> (repeat' split) <;> rfl

theorem files_respond (h : c.movesFiles = false) :
    (respondHost c x host).2.stored = host.stored ∧ (respondHost c x host).2.legacy = host.legacy := by
  have hstored : (respondHost c x host).2.stored = host.stored := by
    apply unchanged Host.stored
    cases c <;> simp only [HostCall.movesFiles, Bool.true_eq_false] at h <;>
      simp only [serve] <;> (repeat' split) <;> rfl
  have hlegacy : (respondHost c x host).2.legacy = host.legacy := by
    apply unchanged Host.legacy
    cases c <;> simp only [HostCall.movesFiles, Bool.true_eq_false] at h <;>
      simp only [serve] <;> (repeat' split) <;> rfl
  exact ⟨hstored, hlegacy⟩

/-- The call was made, and it took effect. -/
def Took (c : HostCall) (calls : List (HostCall × HostChoice)) : Prop :=
  ∃ x, (c, x) ∈ calls ∧ x.done = true

theorem not_took_nil : ¬ Took c [] := fun ⟨_, hx, _⟩ ↦ not_mem_nil hx

variable {calls : List (HostCall × HostChoice)}

theorem took_cons {event : HostCall × HostChoice} :
    Took c (event :: calls) ↔ (event.1 = c ∧ event.2.done) ∨ Took c calls := by
  constructor
  · rintro ⟨x, hx, hdone⟩
    obtain rfl | hx := mem_cons.mp hx
    · exact .inl ⟨rfl, hdone⟩
    · exact .inr ⟨x, hx, hdone⟩
  · rintro (⟨rfl, hdone⟩ | ⟨x, hx, hdone⟩)
    · exact ⟨event.2, mem_cons_self, hdone⟩
    · exact ⟨x, mem_cons_of_mem _ hx, hdone⟩

theorem took_append {calls' : List (HostCall × HostChoice)} :
    Took c (calls ++ calls') ↔ Took c calls ∨ Took c calls' := by
  simp only [Took, mem_append, or_and_right, exists_or]

theorem not_took (h : ∀ event ∈ calls, P event.1) (hc : ¬ P c) : ¬ Took c calls :=
  fun ⟨x, hx, _⟩ ↦ hc (h (c, x) hx)

/-! ## Containers -/

/-- What of a container never changes. -/
structure Fixed where
  labels : Labels
  networkMode : Option String
  mounts : List DockerStateMapper.DockerMount

def HostContainer.fixed (container : HostContainer) : Fixed :=
  ⟨container.labels, container.networkMode, container.mounts⟩

def Host.fixedOf (host : Host) (dockerId : String) : Option Fixed :=
  (host.containers.lookup dockerId).map HostContainer.fixed

theorem fixedOf_put :
    (host.put dockerId container).fixedOf id =
      if id = dockerId then some container.fixed else host.fixedOf id := by
  unfold Host.fixedOf Host.put
  split
  next h => rw [h, AList.lookup_insert]; rfl
  next h => rw [AList.lookup_insert_ne h]

/-- A change of the state leaves the rest of the container. -/
theorem fixedOf_put_same {container' : HostContainer}
    (hfound : host.containers.lookup dockerId = some container)
    (hfixed : container'.fixed = container.fixed) :
    (host.put dockerId container').fixedOf id = host.fixedOf id := by
  rw [fixedOf_put]
  split
  next h => rw [h, Host.fixedOf, hfound, hfixed]; rfl
  next => rfl

theorem fixedOf_start : (respondHost (.start dockerId) x host).2.fixedOf id = host.fixedOf id := by
  apply unchanged fun host ↦ host.fixedOf id
  simp only [serve]
  split
  · rfl
  next container hfound =>
    split
    · rfl
    · split
      · rfl
      · exact fixedOf_put_same hfound rfl

theorem fixedOf_stop : (respondHost (.stop dockerId) x host).2.fixedOf id = host.fixedOf id := by
  apply unchanged fun host ↦ host.fixedOf id
  simp only [serve]
  split
  · rfl
  next container hfound =>
    split
    · exact fixedOf_put_same hfound rfl
    · rfl

theorem fixedOf_create {request : ContainerRequest} :
    (respondHost (.createContainer request) x host).2.fixedOf id =
      if x.done ∧ id = x.dockerId then
        some ⟨request.labels, some request.networkMode, request.mounts⟩
      else host.fixedOf id := by
  rw [respondHost_snd]
  by_cases hdone : x.done
  · simp only [hdone, if_true, true_and]
    exact fixedOf_put
  · simp [hdone]

theorem lookup_eraseIfPresent {β : Type} {entries : AList fun _ : String ↦ β} {name : String} :
    (if name ∈ entries then entries.erase name else entries).lookup id =
      if id = name then none else entries.lookup id := by
  by_cases hid : id = name
  · subst hid
    rw [if_pos rfl]
    split
    next => exact AList.lookup_erase _ _
    next hmem => exact AList.lookup_eq_none.mpr hmem
  · split
    · exact AList.lookup_erase_ne hid
    · rfl

/-- A container is removed by force, whatever its state. -/
theorem lookup_remove : (respondHost (.remove dockerId true) x host).2.containers.lookup id =
    if x.done ∧ id = dockerId then none else host.containers.lookup id := by
  rw [respondHost_snd]
  by_cases hdone : x.done
  · simp only [hdone, if_true, true_and, serve, Bool.not_true, Bool.and_false, Bool.false_eq_true,
      if_false]
    rw [← lookup_eraseIfPresent]
    split <;> rfl
  · simp [hdone]

theorem fixedOf_remove : (respondHost (.remove dockerId true) x host).2.fixedOf id =
    if x.done ∧ id = dockerId then none else host.fixedOf id := by
  rw [Host.fixedOf, lookup_remove]
  split <;> rfl

theorem fixedOf_eq_none_iff : host.fixedOf dockerId = none ↔ dockerId ∉ host.containers := by
  rw [Host.fixedOf, map_eq_none_iff, AList.lookup_eq_none]

/-- A volume is mounted by a container, whatever its state. -/
theorem mounted_iff {name : String} : host.mounted name ↔
    ∃ id fixed, host.fixedOf id = some fixed ∧ name ∈ volumesOf fixed.mounts := by
  rw [Host.mounted, List.any_eq_true]
  constructor
  · rintro ⟨entry, hentry, hname⟩
    refine ⟨entry.1, entry.2.fixed, ?_, contains_iff_mem.mp hname⟩
    rw [Host.fixedOf, AList.mem_lookup_iff.mpr hentry]
    rfl
  · rintro ⟨id, fixed, hfixed, hname⟩
    obtain ⟨container, hfound, rfl⟩ := map_eq_some_iff.mp hfixed
    exact ⟨⟨id, container⟩, AList.mem_lookup_iff.mp hfound, contains_iff_mem.mpr hname⟩

theorem mounted_congr (h : ∀ id, host'.fixedOf id = host.fixedOf id) {name : String} :
    host'.mounted name = host.mounted name := by
  rw [Bool.eq_iff_iff, mounted_iff, mounted_iff]
  simp only [h]

/-- The container is there and has these labels. -/
def Host.Carries (host : Host) (labels : Labels) (dockerId : String) : Prop :=
  ∃ fixed, host.fixedOf dockerId = some fixed ∧
    ∀ label ∈ labels, fixed.labels.lookup label.1 = some label.2

variable {labels : Labels}

theorem carries_congr (h : host'.containers = host.containers) :
    host'.Carries labels id ↔ host.Carries labels id := by
  rw [Host.Carries, Host.Carries, Host.fixedOf, Host.fixedOf, h]

theorem carries_stop :
    (respondHost (.stop dockerId) x host).2.Carries labels id ↔ host.Carries labels id := by
  rw [Host.Carries, Host.Carries, fixedOf_stop]

theorem carries_remove :
    (respondHost (.remove dockerId true) x host).2.Carries labels id ↔
      ¬ (x.done ∧ id = dockerId) ∧ host.Carries labels id := by
  rw [Host.Carries, Host.Carries, fixedOf_remove]
  split
  next h => simp [h]
  next h => simp [h]

theorem mem_matching :
    entry ∈ host.matching labels ↔ host.containers.lookup entry.1 = some entry.2 ∧
      ∀ label ∈ labels, entry.2.labels.lookup label.1 = some label.2 := by
  rw [Host.matching, mem_filter, mem_pairs_iff]
  simp

theorem carries_of_mem (h : entry ∈ host.matching labels) : host.Carries labels entry.1 := by
  obtain ⟨hfound, hlabels⟩ := mem_matching.mp h
  exact ⟨entry.2.fixed, by rw [Host.fixedOf, hfound]; rfl, hlabels⟩

theorem exists_mem_of_carries (h : host.Carries labels dockerId) :
    ∃ container, (dockerId, container) ∈ host.matching labels := by
  obtain ⟨fixed, hfixed, hlabels⟩ := h
  obtain ⟨container, hfound, rfl⟩ := map_eq_some_iff.mp hfixed
  exact ⟨container, mem_matching.mpr ⟨hfound, hlabels⟩⟩

/-- A listing is empty if no container carries its labels. -/
theorem matching_eq_nil_iff :
    host.matching labels = [] ↔ ∀ dockerId, ¬ host.Carries labels dockerId := by
  constructor
  · intro hnil dockerId hcarries
    obtain ⟨container, hmem⟩ := exists_mem_of_carries hcarries
    rw [hnil] at hmem
    cases hmem
  · intro hnone
    apply eq_nil_iff_forall_not_mem.mpr
    exact fun entry hentry ↦ hnone entry.1 (carries_of_mem hentry)

/-! ## The view by labels -/

namespace DockerState

variable {list : List (String × HostContainer)} {found : Found}

theorem mem_of_active (h : found ∈ activeOf list) :
    (found.container.dockerContainerId, found.record) ∈ list := by
  obtain ⟨container, -, hfound⟩ := mem_filterMap.mp h
  obtain ⟨record, hrecord, rfl⟩ := map_eq_some_iff.mp hfound
  exact mem_of_lookup hrecord
where
  mem_of_lookup {entries : List (String × HostContainer)} {dockerId : String}
      {record : HostContainer} (h : entries.lookup dockerId = some record) :
      (dockerId, record) ∈ entries := by
    induction entries with
    | nil => cases h
    | cons entry entries ih =>
      rw [List.lookup_cons] at h
      split at h
      next heq =>
        obtain rfl := eq_of_beq heq
        obtain rfl := some.inj h
        exact mem_cons_self
      next => exact mem_cons_of_mem _ (ih h)

theorem lookup_isSome {entries : List (String × HostContainer)} (h : entry ∈ entries) :
    ∃ record, entries.lookup entry.1 = some record := by
  cases hlookup : entries.lookup entry.1 with
  | some record => exact ⟨record, rfl⟩
  | none => exact absurd (lookup_eq_none_iff.mp hlookup entry h) (by simp)

/-- The view shows something if the listing does. -/
theorem active_eq_nil_iff : activeOf list = [] ↔ list = [] := by
  constructor
  · intro hnil
    cases hlist : list with
    | nil => rfl
    | cons entry rest =>
      have hentry : listed entry ∈ list.map listed := by simp [hlist]
      obtain ⟨c, hc, -⟩ := List.mem_map.mp (ids_pickActivePerId.2 (listed entry) hentry)
      obtain ⟨item, hitem, rfl⟩ := mem_pickActivePerId hc
      obtain ⟨other, hother, rfl⟩ := List.mem_map.mp hitem
      obtain ⟨record, hrecord⟩ := lookup_isSome hother
      have hdockerId : (listed other).container.dockerContainerId = other.1 := rfl
      have hfound : (⟨(listed other).container, record⟩ : Found) ∈ activeOf list :=
        mem_filterMap.mpr ⟨_, hc, by rw [hdockerId, hrecord]; rfl⟩
      rw [hnil] at hfound
      cases hfound
  · rintro rfl
    rfl

end DockerState

/-! ## Programs of one call -/

section Calls

/-- Whether a call has been carried out, which Docker may refuse; an error of the manager's own has
no status. -/
def Settled {α : Type} (x : HostChoice) (refused : Prop) : Except HostError α → Prop
  | .ok _ => x.failure = none ∧ ¬ refused
  | .error e => e.statusCode = none ∧ (x.failure ≠ none ∨ refused)

variable {Q : Except HostError Unit → Host → List (HostCall × HostChoice) → Prop}

theorem traces_handled {Q : Except HostError c.Answer → Host → List (HostCall × HostChoice) → Prop}
    (hok : ∀ x a, (hostMachine law).permits c x host → (respondHost c x host).1 = .ok a →
      Q (.ok a) (respondHost c x host).2 [(c, x)])
    (herror : ∀ x e, (hostMachine law).permits c x host → (respondHost c x host).1 = .error e →
      Traces (hostMachine law) (fun r host' calls ↦ Q r host' ((c, x) :: calls)) (handler e)
        (respondHost c x host).2) :
    Traces (hostMachine law) Q ((await c).tryCatch handler) host := by
  apply Traces.tryCatch
  apply Traces.ask
  intro x hx
  split
  next a ha => exact hok x a hx ha
  next e he => exact herror x e hx he

/-- Docker says by the status that there is nothing to do. -/
def settles (c : HostCall) (e : HostError) : Bool := e.statusCode.any (c.settledBy.contains ·)

/-- Docker refuses the call, and not because there is nothing to do. -/
def Refuses (c : HostCall) (host : Host) (x : HostChoice) : Prop :=
  ∃ e, (serve x c host).1 = .error e ∧ settles c e = false

/-- A call whose settled failures count as done. -/
theorem traces_settling {Q : Except HostError c.Answer → Host → List (HostCall × HostChoice) → Prop}
    {a : c.Answer} {w : String}
    (hhandler : ∀ e, handler e = if settles c e then .pure a else .throw (failedTo w e))
    (h : ∀ x r, (hostMachine law).permits c x host → Settled x (Refuses c host x) r →
      Q r (respondHost c x host).2 [(c, x)]) :
    Traces (hostMachine law) Q ((await c).tryCatch handler) host := by
  apply traces_handled
  · intro x b hx hb
    apply h x (.ok b) hx
    cases hfailure : x.failure with
    | none =>
      rw [respondHost_of_none hfailure] at hb
      exact ⟨hfailure, fun ⟨e, he, _⟩ ↦ by simp [he] at hb⟩
    | some e => simp [respondHost_of_some hfailure] at hb
  · intro x e hx he
    cases hfailure : x.failure with
    | none =>
      rw [respondHost_of_none hfailure] at he
      cases hsettled : settles c e with
      | true =>
        rw [hhandler e, if_pos hsettled]
        apply h x (.ok a) hx
        refine ⟨hfailure, fun ⟨e', he', hunsettled⟩ ↦ ?_⟩
        obtain rfl := Except.error.inj (he'.symm.trans he)
        rw [hsettled] at hunsettled
        cases hunsettled
      | false =>
        rw [hhandler e, if_neg (by simp [hsettled])]
        exact h x (.error _) hx ⟨rfl, .inr ⟨e, he, hsettled⟩⟩
    | some e' =>
      rw [respondHost_of_some hfailure] at he
      obtain rfl := Except.error.inj he
      have hhonest : c.honest e' := by simpa [hfailure] using hx.1.1
      have hnot : settles c { toCallError := e' } = false := by
        simp only [HostCall.honest, Bool.and_eq_true, Bool.not_eq_true'] at hhonest
        exact hhonest.1
      rw [hhandler _, if_neg (by simp [hnot])]
      exact h x (.error _) hx ⟨rfl, .inl (by simp [hfailure])⟩

theorem traces_stopContainer (h : ∀ x r, (hostMachine law).permits (.stop dockerId) x host →
      Settled x (Refuses (.stop dockerId) host x) r →
      Q r (respondHost (.stop dockerId) x host).2 [(.stop dockerId, x)]) :
    Traces (hostMachine law) Q (ContainerManager.stopContainer dockerId) host := by
  apply traces_settling (c := .stop dockerId) (a := ()) (w := "stop container " ++ dockerId) _ h
  intro e
  cases hstatus : e.statusCode with
  | none => simp [settles, hstatus]
  | some status => by_cases h304 : status = 304 <;> simp [settles, HostCall.settledBy, hstatus, h304]

theorem traces_removeContainer
    (h : ∀ x r, (hostMachine law).permits (.remove dockerId true) x host →
      Settled x (Refuses (.remove dockerId true) host x) r →
      Q r (respondHost (.remove dockerId true) x host).2 [(.remove dockerId true, x)]) :
    Traces (hostMachine law) Q (ContainerManager.removeContainer dockerId true) host := by
  apply traces_settling (c := .remove dockerId true) (a := ())
    (w := "remove container " ++ dockerId) _ h
  intro e
  cases hstatus : e.statusCode <;> simp [settles, HostCall.settledBy, hstatus]

variable {name : String}

theorem traces_removeVolume (h : ∀ x r, (hostMachine law).permits (.removeVolume name) x host →
      Settled x (Refuses (.removeVolume name) host x) r →
      Q r (respondHost (.removeVolume name) x host).2 [(.removeVolume name, x)]) :
    Traces (hostMachine law) Q (ContainerManager.removeVolume name) host := by
  apply traces_settling (c := .removeVolume name) (a := ()) (w := "remove volume " ++ name) _ h
  intro e
  cases hstatus : e.statusCode <;> simp [settles, HostCall.settledBy, hstatus]

/-- The host after a container has been stopped and removed. -/
abbrev Host.discard (host : Host) (dockerId : String) (x y : HostChoice) : Host :=
  (respondHost (.remove dockerId true) y (respondHost (.stop dockerId) x host).2).2

variable {y : HostChoice}

theorem servers_discard : (host.discard dockerId x y).servers = host.servers :=
  (servers_respond (by rfl)).trans (servers_respond (by rfl))

theorem volumes_discard : (host.discard dockerId x y).volumes = host.volumes :=
  (volumes_respond (by rfl)).trans (volumes_respond (by rfl))

theorem files_discard (dockerId : String) (x y : HostChoice) :
    (host.discard dockerId x y).stored = host.stored ∧
      (host.discard dockerId x y).legacy = host.legacy := by
  constructor
  · exact (files_respond (by rfl)).1.trans (files_respond (by rfl)).1
  · exact (files_respond (by rfl)).2.trans (files_respond (by rfl)).2

theorem carries_discard {labels : Labels} : (host.discard dockerId x y).Carries labels id ↔
    ¬ (y.done ∧ id = dockerId) ∧ host.Carries labels id := by
  rw [carries_remove, carries_stop]

/-- A container is stopped and removed, whatever comes of it. -/
theorem traces_discard {Q : Except HostError α → Host → List (HostCall × HostChoice) → Prop}
    (h : ∀ x y, (hostMachine law).permits (.stop dockerId) x host →
      (hostMachine law).permits (.remove dockerId true) y (respondHost (.stop dockerId) x host).2 →
      Traces (hostMachine law)
        (fun r host' calls ↦ Q r host' ((.stop dockerId, x) :: (.remove dockerId true, y) :: calls))
        p (host.discard dockerId x y)) :
    Traces (hostMachine law) Q
      ((ContainerManager.stopContainer dockerId).settle >>= fun _ ↦
        (ContainerManager.removeContainer dockerId true).settle >>= fun _ ↦ p) host := by
  have hstop : Traces (hostMachine law) (fun _ host' calls ↦
      ∃ x, (hostMachine law).permits (.stop dockerId) x host ∧
        host' = (respondHost (.stop dockerId) x host).2 ∧ calls = [(.stop dockerId, x)])
      (ContainerManager.stopContainer dockerId) host :=
    traces_stopContainer fun x r hx _ ↦ ⟨x, hx, rfl, rfl⟩
  apply hstop.settle_bind
  rintro _ _ _ ⟨x, hx, rfl, rfl⟩
  have hremove : Traces (hostMachine law) (fun _ host' calls ↦
      ∃ y, (hostMachine law).permits (.remove dockerId true) y
          (respondHost (.stop dockerId) x host).2 ∧
        host' = host.discard dockerId x y ∧ calls = [(.remove dockerId true, y)])
      (ContainerManager.removeContainer dockerId true)
      (respondHost (.stop dockerId) x host).2 :=
    traces_removeContainer fun y r hy _ ↦ ⟨y, hy, rfl, rfl⟩
  apply hremove.settle_bind
  rintro _ _ _ ⟨y, hy, rfl, rfl⟩
  exact h x y hx hy

/-- A volume that a container mounts is not removed. -/
theorem refuses_removeVolume_iff :
    Refuses (.removeVolume name) host x ↔ host.mounted name := by
  cases hmounted : host.mounted name with
  | true =>
    simp only [iff_true]
    exact ⟨conflict "volume is in use", by simp [serve, hmounted], rfl⟩
  | false =>
    simp only [Bool.false_eq_true, iff_false]
    rintro ⟨e, he, hunsettled⟩
    simp only [serve, hmounted, Bool.false_eq_true, if_false] at he
    split at he
    · cases he
    · obtain rfl := Except.error.inj he
      cases hunsettled

theorem lookup_removeVolume :
    (respondHost (.removeVolume name) x host).2.volumes.lookup other =
      if x.done ∧ host.mounted name = false ∧ other = name then none
      else host.volumes.lookup other := by
  rw [respondHost_snd]
  by_cases hdone : x.done
  · cases hmounted : host.mounted name with
    | true => simp [hdone, serve, hmounted]
    | false =>
      simp only [hdone, if_true, true_and, serve, hmounted, Bool.false_eq_true, if_false]
      rw [← lookup_eraseIfPresent]
      split <;> rfl
  · simp [hdone]

theorem mem_removeVolume :
    other ∈ (respondHost (.removeVolume name) x host).2.volumes ↔
      other ∈ host.volumes ∧ ¬ (x.done ∧ host.mounted name = false ∧ other = name) := by
  rw [← AList.lookup_isSome, lookup_removeVolume, ← AList.lookup_isSome]
  split
  next h => simp [h]
  next h => simp [h]

/-- The host apart from its volumes. -/
def Host.volumeless (host : Host) : Host := { host with volumes := ∅ }

theorem of_volumeless (h : host'.volumeless = host.volumeless) :
    host'.containers = host.containers ∧ host'.servers = host.servers ∧
      host'.stored = host.stored ∧ host'.legacy = host.legacy := by
  have hcontainers := congrArg Host.containers h
  have hservers := congrArg Host.servers h
  have hstored := congrArg Host.stored h
  have hlegacy := congrArg Host.legacy h
  exact ⟨hcontainers, hservers, hstored, hlegacy⟩

theorem volumeless_removeVolume :
    (respondHost (.removeVolume name) x host).2.volumeless = host.volumeless := by
  apply unchanged Host.volumeless
  simp only [serve]
  split
  · rfl
  · split <;> rfl

theorem traces_inspectVolume : Traces (hostMachine law)
    (fun r host' _ ↦ host' = host ∧ ∀ labels, r = .ok labels → labels = host.volumes.lookup name)
    (ContainerManager.inspectVolume name) host := by
  intro x hx
  have hserved : (hostMachine law).respond (.inspectVolume name) x host =
      respondHost (.inspectVolume name) x host := rfl
  rw [hserved]
  cases hfailure : x.failure with
  | none =>
    rw [respondHost_of_none hfailure]
    cases hlookup : host.volumes.lookup name with
    | none | some labels =>
      simp only [serve, hlookup]
      exact ⟨rfl, fun _ h ↦ (Except.ok.inj h).symm⟩
  | some e =>
    rw [respondHost_of_some hfailure]
    have hhonest : (HostCall.inspectVolume name).honest e := by
      simpa [hfailure] using hx.1.1
    have hstatus : e.statusCode ≠ some 404 := by
      intro h404
      simp [HostCall.honest, HostCall.settledBy, h404] at hhonest
    have hhost : (if x.effective then (serve x (.inspectVolume name) host).2 else host) = host := by
      simp [serve]
    rw [hhost]
    change Traces _ _ (if e.statusCode = some 404 then .pure none else .throw _) host
    rw [if_neg hstatus]
    exact ⟨rfl, nofun⟩

end Calls

/-! ## Programs that leave a part alone -/

/-- The outcome of a single call. -/
structure Answered (law : HostCall → HostChoice → Prop) (c : HostCall) (host : Host)
    (r : Except HostError c.Answer) (host' : Host) (calls : List (HostCall × HostChoice))
    (x : HostChoice) : Prop where
  permitted : (hostMachine law).permits c x host
  answer : r = (respondHost c x host).1
  state : host' = (respondHost c x host).2
  call : calls = [(c, x)]

theorem traces_await (c : HostCall) : Traces (hostMachine law)
    (fun r host' calls ↦ ∃ x, Answered law c host r host' calls x) (await c) host :=
  Traces.ask fun x hx ↦ ⟨x, hx, rfl, rfl, rfl⟩

theorem asks_await (h : P c) : Asks P (await c) := Asks.ask h

/-- A program whose calls all leave a part of the host alone leaves it alone. -/
theorem traces_keeping {β : Type} (part : Host → β) (hp : Asks P p)
    (hkeep : ∀ c x host, P c → part (respondHost c x host).2 = part host) :
    Traces (hostMachine law) (fun _ host' calls ↦
      part host' = part host ∧ ∀ event ∈ calls, P event.1) p host := by
  have hpart : wp (hostMachine law)
      (fun c x host' ↦ part ((hostMachine law).respond c x host').2 = part host)
      (fun _ host' ↦ part host' = part host) p host := by
    apply hp.wp (I := fun host' ↦ part host' = part host) _ rfl
    intro c x host' hc _ hhost'
    exact (hkeep c x host' hc).trans hhost'
  exact (Traces.of_wp hpart).and (hp.traces host)

/-! ## Lookups by id -/

namespace DockerState

variable {config : HostConfig} {workspaceId : Option String}

/-- What the view shows is a container that carries the labels, mapped. -/
theorem active_of_matching {labels : Labels} {found : Found}
    (h : found ∈ activeOf (host.matching labels)) :
    host.containers.lookup found.container.dockerContainerId = some found.record ∧
      found.container = mapListEntryToContainer found.container.dockerContainerId
        found.record.toDockerContainer ∧
      host.Carries labels found.container.dockerContainerId := by
  have hmem := mem_of_active h
  obtain ⟨hlookup, hlabels⟩ := mem_matching.mp hmem
  refine ⟨hlookup, ?_, carries_of_mem hmem⟩
  obtain ⟨container, hcontainer, hfound⟩ := mem_filterMap.mp h
  obtain ⟨item, hitem, rfl⟩ := mem_pickActivePerId hcontainer
  obtain ⟨entry, hentry, rfl⟩ := List.mem_map.mp hitem
  obtain ⟨record, -, rfl⟩ := map_eq_some_iff.mp hfound
  have hentry' := (mem_matching.mp hentry).1
  have hsame : entry.2 = record := some.inj (hentry'.symm.trans hlookup)
  change mapListEntryToContainer entry.1 entry.2.toDockerContainer =
    mapListEntryToContainer entry.1 record.toDockerContainer
  rw [hsame]

/-- The outcome of a lookup, which changes nothing. -/
structure LookedUp (config : HostConfig) (id : String) (workspaceId : Option String) (host : Host)
    (r : Except HostError (Option Found)) (host' : Host) (calls : List (HostCall × HostChoice)) :
    Prop where
  unchanged : host' = host
  asked : ∀ event ∈ calls, event.1 = .listContainers (scopeLabels id workspaceId)
  answered : match r with
    | .ok found => ¬ (config.fleetMode = true ∧ truthy workspaceId = none) ∧
        found = (activeOf (host.matching (scopeLabels id workspaceId))).head? ∧
        ∀ event ∈ calls, event.2.failure = none
    | .error _ => config.fleetMode = true ∧ truthy workspaceId = none ∨
        ∃ event ∈ calls, event.2.failure ≠ none

theorem traces_getById :
    Traces (hostMachine law) (LookedUp config id workspaceId host)
      (getById config id workspaceId) host := by
  apply Traces.guard
  · intro hscope
    exact ⟨rfl, fun _ h ↦ absurd h not_mem_nil, .inl hscope⟩
  intro hscope x hx
  have hserved : (hostMachine law).respond (.listContainers (scopeLabels id workspaceId)) x host =
      respondHost (.listContainers (scopeLabels id workspaceId)) x host := rfl
  cases hfailure : x.failure with
  | none =>
    rw [respondHost_of_none hfailure] at hserved
    rw [hserved]
    exact ⟨rfl, fun event h ↦ mem_singleton.mp h ▸ rfl, hscope, rfl,
      fun event h ↦ mem_singleton.mp h ▸ hfailure⟩
  | some e =>
    rw [respondHost_of_some hfailure] at hserved
    rw [hserved]
    refine ⟨?_, fun event h ↦ mem_singleton.mp h ▸ rfl,
      .inr ⟨_, mem_singleton_self _, by simp [hfailure]⟩⟩
    simp [serve]

end DockerState

/-! ## A host that fails at nothing -/

/-- A Docker id that no container has. -/
def Host.freshId (host : Host) : String :=
  String.ofList (host.containers.keys.flatMap String.toList ++ ['x'])

theorem Host.freshId_not_mem (host : Host) : host.freshId ∉ host.containers := by
  intro hmem
  have hkey : host.freshId ∈ host.containers.keys := hmem
  have hlength : ∀ keys : List String, ∀ key ∈ keys,
      key.toList.length ≤ (keys.flatMap String.toList).length := by
    intro keys
    induction keys with
    | nil => exact nofun
    | cons first keys ih =>
      intro key hkey
      rw [flatMap_cons, length_append]
      obtain rfl | hkey := mem_cons.mp hkey
      · omega
      · have hrest := ih key hkey
        omega
  have hle := hlength _ _ hkey
  rw [Host.freshId, String.toList_ofList, length_append] at hle
  simp only [length_singleton] at hle
  omega

/-- What happens at a call that succeeds. -/
def obliging (host : Host) : HostChoice := { dockerId := host.freshId }

theorem permitsHost_obliging : permitsHost c (obliging host) host := by
  refine ⟨rfl, fun _ ↦ rfl, ?_⟩
  split
  · exact host.freshId_not_mem
  · trivial

namespace Sample

def config : HostConfig where
  fleetMode := true
  appNetworkName := none
  dockerNetwork := "bridge"
  fleetAgentContainer := "agent"
  domains := []
  proxiesNatively := true
  proxiesByCaddy := false
  imageRegistryAllowlist := []
  defaultResources := ⟨256, 1 / 2, 64⟩
  brokerRoot := "/run/broker"
  hasStateRoot := true

/-- A host with nothing on it. -/
def emptyHost : Host where
  containers := ∅
  volumes := ∅
  networks := ∅
  servers := ∅
  handles := 0
  stored := ∅
  legacy := ∅
  clock := 0

/-- Every call succeeds. -/
def freely : Machine hostSignature HostError Host HostChoice := hostMachine fun _ _ ↦ True

theorem lawful (c : HostCall) (host : Host) : freely.permits c (obliging host) host :=
  ⟨permitsHost_obliging, trivial⟩

end Sample

end PrivosCluster.AgentHost
