import PrivosCluster.AsyncProgram.History
import PrivosCluster.AsyncProgram.ParallelContracts
import PrivosCluster.Agent.StopAndMonitor

/-!
# Memory kills that the health monitor has seen

The monitor looks up whether an exited container was killed for its memory unless it knows of a
kill already, and it forgets a kill only when the container is gone. So of all the kills of one
container it keeps the first.
-/

namespace PrivosCluster.Agent

open AsyncProgram HealthMonitor List Option

/-- The overlay of the container listing. -/
def getOomKilledAt (node : Node) (id : String) : Option Time := node.oomState.lookup id

/-! ## A container under watch -/

/-- When the container was last killed for its memory, by its record. -/
def DockerContainer.killedAt (record : DockerContainer) : List Time :=
  if record.oomKilled then record.finishedAt.toList else []

/-- A node, and what the monitor has been shown of one of its containers. -/
structure Watch where
  node : Node
  /-- When the memory kills that it was shown happened, the oldest first. -/
  observed : List Time
  /-- The kill that the tick under way is the first to be shown. -/
  fresh : Option DockerContainer

structure WatchChoice where
  base : NodeChoice := {}
  /-- The node as everyone else leaves it just before the call. -/
  elsewhere : Node

/-- The container is there under its id, which no other has, and says when it was killed. -/
structure Watchable (id dockerId : String) (node : Node) (record : DockerContainer) : Prop where
  found : node.containers.lookup dockerId = some record
  managed : record.labels.lookup managedLabel.1 = some managedLabel.2
  hasId : (mapListEntryToContainer dockerId record).id = id
  sole : ∀ entry ∈ node.containers.matching [managedLabel],
    (mapListEntryToContainer entry.1 entry.2).id = id → entry.1 = dockerId
  dated : record.oomKilled = true → ∃ time, record.finishedAt = some time ∧ 0 < time

/-- What an answer shows of the container. -/
def Watch.note (dockerId : String) (w : Watch) : (c : NodeCall) → Except AgentError c.Answer → Watch
  | .listContainers _, .ok list =>
    match (list : List (String × DockerContainer)).lookup dockerId with
    | some record =>
      if mapState record.status = .stopped then
        { w with
          observed := w.observed ++ record.killedAt
          fresh := if record.killedAt ⊆ w.observed then none else some record }
      else w
    | none => w
  | .inspect other, .ok record =>
    if other = dockerId then
      { w with observed := w.observed ++ (record : DockerContainer).killedAt }
    else w
  | .leaveTick, _ => { w with fresh := none }
  | _, _ => w

def watchRespond (dockerId : String) (c : NodeCall) (x : WatchChoice) (w : Watch) :
    Except AgentError c.Answer × Watch :=
  let answer := respondNode c x.base x.elsewhere
  (answer.1, { w with node := answer.2 }.note dockerId c answer.1)

/--
Only the monitor writes its map, the inspections of the container succeed, and a kill that a tick
is the first to be shown lasts until the tick is over.
-/
structure WatchLaw (id dockerId : String) (c : NodeCall) (x : WatchChoice) (w : Watch) : Prop where
  own : x.elsewhere.oomState = w.node.oomState
  watchable : ∃ record, Watchable id dockerId (respondNode c x.base x.elsewhere).2 record
  inspects : c = .inspect dockerId → x.base.failure = none
  lasts : ∀ record, w.fresh = some record →
    (respondNode c x.base x.elsewhere).2.containers.lookup dockerId = some record

def watching (id dockerId : String) : Machine nodeSignature AgentError Watch WatchChoice where
  permits := WatchLaw id dockerId
  respond := watchRespond dockerId

/-- Ticks of the monitor, one after the other, each to its end. -/
structure Ticks (id dockerId : String) (w : Watch)
    (steps : List (HistoryStep Unit AgentError Watch)) (w' : Watch) : Prop where
  history : History (watching id dockerId) (fun _ : Unit ↦ tick) w steps w'
  returned : ∀ step ∈ steps, step.outcome = .returned ()

/-- The monitor has not been shown anything, and knows of nothing. -/
structure Watch.Unwatched (id : String) (w : Watch) : Prop where
  unknown : getOomKilledAt w.node id = none
  observed : w.observed = []

/-! ## What each call leaves alone -/

variable {node : Node} {entry : String × DockerContainer} {labels : List (String × String)}
  {record info : DockerContainer} {I : Watch → Prop}

section Calls

variable {id dockerId : String} {c : NodeCall} {x : WatchChoice} {w w' w'' : Watch}

/-- The calls of a tick that neither show the container nor touch what is known of it. -/
def Quiet (id dockerId : String) : NodeCall → Prop
  | .listContainers _ => False
  | .inspect other => other ≠ dockerId
  | .leaveTick => False
  | .setOom other _ => other ≠ id
  | .prune liveIds => id ∈ liveIds
  | _ => True

theorem lookup_keepIds {β : String → Type} {ids : List String} (hid : id ∈ ids)
    (entries : AList β) : (keepIds ids entries).lookup id = entries.lookup id := by
  unfold keepIds
  have hkept : ∀ other ∈ entries.keys.filter (· ∉ ids), other ≠ id := by
    intro other hother heq
    have hdropped := (mem_filter.mp hother).2
    simp [heq, hid] at hdropped
  generalize entries.keys.filter (· ∉ ids) = dropped at hkept
  induction dropped generalizing entries with
  | nil => rfl
  | cons other dropped ih =>
    rw [foldl_cons, ih _ fun k hk ↦ hkept k (mem_cons_of_mem _ hk)]
    exact AList.lookup_erase_ne (hkept other mem_cons_self).symm

theorem getOomKilledAt_respondNode {x : NodeChoice} (hc : Quiet id dockerId c) :
    getOomKilledAt (respondNode c x node).2 id = getOomKilledAt node id := by
  have hserve : ∀ node, getOomKilledAt (serve x c node).2 id = getOomKilledAt node id := by
    intro node
    cases c with
    | setOom other time => exact AList.lookup_insert_ne hc.symm
    | prune liveIds => exact lookup_keepIds hc node.oomState
    | start | stop | restart | remove =>
      simp only [serve]
      repeat' split
      all_goals rfl
    | _ => rfl
  obtain heq | heq := @respondNode_cases c x node
  · rw [heq]
    rfl
  · rw [heq, hserve]
    rfl

theorem note_of_quiet (hc : Quiet id dockerId c) (answer : Except AgentError c.Answer) :
    w.note dockerId c answer = w := by
  cases c with
  | listContainers labels => exact hc.elim
  | leaveTick => exact hc.elim
  | inspect other =>
    cases answer with
    | error e => rfl
    | ok record => exact if_neg hc
  | _ => cases answer <;> rfl

/-- Nothing about the container has changed that the monitor knows or is shown. -/
structure Watch.Unmoved (id dockerId : String) (w w' : Watch) : Prop where
  known : getOomKilledAt w'.node id = getOomKilledAt w.node id
  observed : w'.observed = w.observed
  fresh : w'.fresh = w.fresh
  lasts : ∀ record, w.fresh = some record → w.node.containers.lookup dockerId = some record →
    w'.node.containers.lookup dockerId = some record

theorem Watch.Unmoved.refl (w : Watch) : w.Unmoved id dockerId w := ⟨rfl, rfl, rfl, fun _ _ h ↦ h⟩

theorem Watch.Unmoved.trans (h : w.Unmoved id dockerId w') (h' : w'.Unmoved id dockerId w'') :
    w.Unmoved id dockerId w'' where
  known := h'.known.trans h.known
  observed := h'.observed.trans h.observed
  fresh := h'.fresh.trans h.fresh
  lasts record hfresh hfound :=
    h'.lasts record (h.fresh.trans hfresh) (h.lasts record hfresh hfound)

theorem unmoved_of_quiet (hc : Quiet id dockerId c) (hx : WatchLaw id dockerId c x w) :
    w.Unmoved id dockerId (watchRespond dockerId c x w).2 := by
  unfold watchRespond
  dsimp only
  rw [note_of_quiet hc]
  refine ⟨?_, rfl, rfl, fun record hfresh _ ↦ hx.lasts record hfresh⟩
  rw [getOomKilledAt_respondNode hc, getOomKilledAt, hx.own]
  rfl

/-- The monitor knows of the first kill that it was shown. -/
def Watch.Known (id : String) (w : Watch) : Prop := getOomKilledAt w.node id = w.observed.head?

/-- The first kill has been listed by the tick under way, and is still to be looked up. -/
structure Watch.Due (id dockerId : String) (w : Watch) : Prop where
  unknown : getOomKilledAt w.node id = none
  shown : ∃ record, w.fresh = some record ∧ w.node.containers.lookup dockerId = some record ∧
    w.observed = record.killedAt ∧ record.killedAt ≠ []

theorem Watch.Unmoved.keeps_known (h : w.Unmoved id dockerId w') (hknown : w.Known id) :
    w'.Known id := by
  unfold Known at hknown ⊢
  rw [h.known, h.observed, hknown]

theorem Watch.Unmoved.keeps_due (h : w.Unmoved id dockerId w') (hdue : w.Due id dockerId) :
    w'.Due id dockerId := by
  obtain ⟨record, hfresh, hfound, hobserved, hkilled⟩ := hdue.shown
  refine ⟨h.known.trans hdue.unknown, record, h.fresh.trans hfresh, h.lasts record hfresh hfound,
    h.observed.trans hobserved, hkilled⟩

end Calls

/-! ## A tick -/

section Tick

variable {id dockerId : String} {w w' : Watch} {list : List (String × DockerContainer)}

/-- What the monitor has to know, depending on the state that the listing gave the container. -/
def Watch.Settled (id dockerId : String) (w : Watch) (state : ContainerState) : Prop :=
  w.Known id ∨ w.Due id dockerId ∧ state = .stopped

theorem Watch.Unmoved.keeps_settled {state : ContainerState} (h : w.Unmoved id dockerId w')
    (hsettled : w.Settled id dockerId state) : w'.Settled id dockerId state :=
  hsettled.imp h.keeps_known fun hdue ↦ ⟨h.keeps_due hdue.1, hdue.2⟩

/-- The listing shows the container once, as it is. -/
structure Listed (id dockerId : String) (list : List (String × DockerContainer)) (w : Watch) :
    Prop where
  ids : ∀ entry ∈ list, (mapListEntryToContainer entry.1 entry.2).id = id ↔ entry.1 = dockerId
  shown : ∃ record, (dockerId, record) ∈ list ∧ (∀ entry ∈ list, entry.1 = dockerId →
    entry.2 = record) ∧ w.Settled id dockerId (mapState record.status)

theorem mem_matching {containers : Containers} : entry ∈ containers.matching labels ↔
      containers.lookup entry.1 = some entry.2 ∧
        ∀ label ∈ labels, entry.2.labels.lookup label.1 = some label.2 := by
  rw [Containers.matching, mem_filter, mem_pairs_iff]
  simp

theorem Watchable.mem_matching (hwatch : Watchable id dockerId node record) :
    (dockerId, record) ∈ node.containers.matching [managedLabel] :=
  Agent.mem_matching.mpr ⟨hwatch.found, by simpa using hwatch.managed⟩

theorem lookup_matching (hwatch : Watchable id dockerId node record) :
    (node.containers.matching [managedLabel]).lookup dockerId = some record := by
  have hmem := hwatch.mem_matching
  cases hfound : (node.containers.matching [managedLabel]).lookup dockerId with
  | none => exact absurd (lookup_eq_none_iff.mp hfound _ hmem) (by simp)
  | some other =>
    obtain ⟨before, after, hlist, -⟩ := lookup_eq_some_iff.mp hfound
    have hother := (mem_matching.mp (hlist ▸ mem_append_right _ mem_cons_self)).1
    exact hother.symm.trans hwatch.found

/-- A listing shows the first kill, or one of those that come after it. -/
theorem settled_of_shown (hknown : w.Known id)
    (hfound : w.node.containers.lookup dockerId = some record) :
    Watch.Settled id dockerId { w with
      observed := w.observed ++ record.killedAt
      fresh := if record.killedAt ⊆ w.observed then none else some record } .stopped := by
  cases hobserved : w.observed with
  | cons time earlier =>
    left
    rw [Watch.Known, hobserved] at hknown
    exact hknown
  | nil =>
    rw [Watch.Known, hobserved] at hknown
    by_cases hkilled : record.killedAt = []
    · left
      rw [hkilled]
      exact hknown
    · right
      have hfresh : ¬ record.killedAt ⊆ [] := fun h ↦ hkilled (subset_nil.mp h)
      exact ⟨⟨hknown, record, if_neg hfresh, hfound, rfl, hkilled⟩, rfl⟩

theorem listed_of_listing {x : WatchChoice} (hknown : w.Known id)
    (hx : WatchLaw id dockerId (.listContainers [managedLabel]) x w) :
    onOutcome (Listed id dockerId) (fun _ ↦ Watch.Known id)
      (watchRespond dockerId (.listContainers [managedLabel]) x w).1
      (watchRespond dockerId (.listContainers [managedLabel]) x w).2 := by
  obtain ⟨record, hwatch⟩ := hx.watchable
  let answered := respondNode (.listContainers [managedLabel]) x.base x.elsewhere
  have hown : getOomKilledAt answered.2 id = getOomKilledAt w.node id := by
    have hstate : answered.2 = x.elsewhere.afterExits x.base.exits := by
      obtain heq | heq := @respondNode_cases (.listContainers [managedLabel]) x.base x.elsewhere
      · exact heq
      · exact congrArg Prod.snd heq
    rw [hstate, getOomKilledAt, getOomKilledAt, ← hx.own]
    rfl
  have hknown' : ({ w with node := answered.2 } : Watch).Known id := hown.trans hknown
  unfold watchRespond
  cases hfailure : x.base.failure with
  | some e =>
    simp only [answered, respondNode, hfailure, failed] at hknown' ⊢
    exact hknown'
  | none =>
    simp only [answered, respondNode, hfailure, serve] at hwatch hknown' ⊢
    have hlookup := lookup_matching hwatch
    refine ⟨?_, record, hwatch.mem_matching, ?_, ?_⟩
    · intro entry hentry
      refine ⟨hwatch.sole entry hentry, fun heq ↦ ?_⟩
      obtain ⟨other, found⟩ := entry
      obtain rfl : other = dockerId := heq
      obtain rfl : found = record :=
        some.inj ((mem_matching.mp hentry).1.symm.trans hwatch.found)
      exact hwatch.hasId
    · intro entry hentry heq
      have hfound := (mem_matching.mp hentry).1
      rw [heq] at hfound
      exact some.inj (hfound.symm.trans hwatch.found)
    · simp only [Watch.note, hlookup]
      split
      next hstopped =>
        rw [hstopped]
        exact settled_of_shown hknown' hwatch.found
      next => exact .inl hknown'

theorem Watch.Unmoved.keeps_listed (h : w.Unmoved id dockerId w')
    (hlisted : Listed id dockerId list w) : Listed id dockerId list w' := by
  obtain ⟨record, hmem, hsame, hsettled⟩ := hlisted.shown
  exact ⟨hlisted.ids, record, hmem, hsame, h.keeps_settled hsettled⟩

abbrev unmovedContract (id dockerId : String) :
    Contract nodeSignature AgentError Watch WatchChoice Unit :=
  .relying (@Watch.Unmoved.refl id dockerId) fun _ _ _ h h' ↦ h.trans h'

/-- Quiet calls keep what does not depend on more. -/
theorem wp_of_quiet {α : Type} {p : NodeProgram α} (hp : Asks (Quiet id dockerId) p)
    (hI : ∀ w w' : Watch, w.Unmoved id dockerId w' → I w → I w') (hw : I w) :
    wp (watching id dockerId) (fun _ _ _ ↦ True) (fun _ ↦ I) p w := by
  apply wp_mono (fun _ _ _ _ ↦ trivial) (fun _ _ h ↦ h)
  exact hp.wp (fun c x w hc hx ↦ hI _ _ (unmoved_of_quiet hc hx)) hw

/-- The fields of an item that the monitor decides on. -/
def ListedContainer.identity (item : ListedContainer) : String × String × ContainerState :=
  (item.container.dockerContainerId, item.container.id, item.container.state)

/-- Memory does not fail. -/
def NodeCall.IsMemory : NodeCall → Prop
  | .getHealth _ => True
  | .getOom _ => True
  | .setOom _ _ => True
  | .prune _ => True
  | .enterTick => True
  | .leaveTick => True
  | .now => True
  | _ => False

theorem respondNode_of_isMemory {c : NodeCall} (hc : c.IsMemory) (x : NodeChoice) (node : Node) :
    respondNode c x node = serve x c (node.afterExits x.exits) := by
  unfold respondNode
  cases x.failure with
  | none => rfl
  | some e => cases c <;> first | exact hc.elim | rfl

theorem wp_memory {c : NodeCall} (hc : Quiet id dockerId c) (hmemory : c.IsMemory)
    (hI : ∀ w w' : Watch, w.Unmoved id dockerId w' → I w → I w') (hw : I w) :
    wp (watching id dockerId) (fun _ _ _ ↦ True) (onOutcome (fun _ ↦ I) fun _ _ ↦ False)
      (await c) w := by
  intro x hx
  have hnext := hI _ _ (unmoved_of_quiet hc hx) hw
  have hanswer : ∃ a, (respondNode c x.base x.elsewhere).1 = .ok a := by
    rw [respondNode_of_isMemory hmemory]
    cases c <;> first | exact hmemory.elim | exact ⟨_, rfl⟩
  obtain ⟨a, ha⟩ := hanswer
  have hok : ((watching id dockerId).respond c x w).1 = .ok a := ha
  refine ⟨trivial, ?_⟩
  rw [hok]
  exact hnext

/-- The same fields of a listed entry. -/
def entryIdentity (entry : String × DockerContainer) : String × String × ContainerState :=
  (entry.1, (mapListEntryToContainer entry.1 entry.2).id, mapState entry.2.status)

theorem wp_listEntry (hI : ∀ w w' : Watch, w.Unmoved id dockerId w' → I w → I w') (hw : I w) :
    wp (watching id dockerId) (fun _ _ _ ↦ True)
      (onOutcome (fun item w ↦ item.identity = entryIdentity entry ∧ I w) fun _ _ ↦ False)
      (listEntry entry) w := by
  have hquiet : Quiet id dockerId (.getHealth (mapListEntryToContainer entry.1 entry.2).id) :=
    trivial
  apply wp.bind (wp_memory hquiet trivial hI hw)
  · exact fun health w hw ↦ ⟨rfl, hw⟩
  · exact fun _ _ hfalse ↦ hfalse

/-- The view shows the container once, under its id. -/
structure Viewed (id dockerId : String) (containers : List Container) (w : Watch) : Prop where
  ids : (containers.map (·.id)).Nodup
  sole : ∀ c ∈ containers, c.id = id ↔ c.dockerContainerId = dockerId
  shown : ∃ c ∈ containers, c.id = id ∧ w.Settled id dockerId c.state

theorem viewed_of_listed {items : List ListedContainer} (hlisted : Listed id dockerId list w)
    (hitems : items.map (·.identity) = list.map entryIdentity) :
    Viewed id dockerId (pickActivePerId items) w := by
  have hentry : ∀ item ∈ items, ∃ entry ∈ list, entryIdentity entry = item.identity := by
    intro item hitem
    exact List.mem_map.mp (hitems ▸ List.mem_map_of_mem hitem)
  have hsole : ∀ c ∈ pickActivePerId items, c.id = id ↔ c.dockerContainerId = dockerId := by
    intro c hc
    obtain ⟨item, hitem, rfl⟩ := mem_pickActivePerId hc
    obtain ⟨entry, hmem, heq⟩ := hentry item hitem
    have hids := hlisted.ids entry hmem
    simp only [entryIdentity, ListedContainer.identity, Prod.mk.injEq] at heq
    rwa [heq.2.1, heq.1] at hids
  refine ⟨ids_pickActivePerId.1, hsole, ?_⟩
  obtain ⟨record, hmem, hsame, hsettled⟩ := hlisted.shown
  -- the record is the container's, and so is the item in the view
  have hid := (hlisted.ids _ hmem).mpr rfl
  have hshown : entryIdentity (dockerId, record) ∈ items.map (·.identity) :=
    hitems ▸ List.mem_map_of_mem hmem
  obtain ⟨item, hitem, heq⟩ := List.mem_map.mp hshown
  simp only [entryIdentity, ListedContainer.identity, Prod.mk.injEq] at heq
  obtain ⟨c, hc, hcid⟩ := List.mem_map.mp (ids_pickActivePerId.2 item hitem)
  rw [heq.2.1, hid] at hcid
  refine ⟨c, hc, hcid, ?_⟩
  obtain ⟨item', hitem', rfl⟩ := mem_pickActivePerId hc
  obtain ⟨entry, hentry', heq'⟩ := hentry item' hitem'
  simp only [entryIdentity, ListedContainer.identity, Prod.mk.injEq] at heq'
  have hdocker := (hsole _ hc).mp hcid
  rw [← heq'.2.2, hsame entry hentry' (heq'.1.trans hdocker)]
  exact hsettled

theorem wp_items (hlisted : Listed id dockerId list w) :
    wp (watching id dockerId) (fun _ _ _ ↦ True)
      (onOutcome (fun items w ↦ items.map (·.identity) = list.map entryIdentity ∧
        Listed id dockerId list w) fun _ _ ↦ False) (Program.mapEach listEntry list) w := by
  apply wp_mapEach (I := fun (visited : List (String × DockerContainer))
    (items : List ListedContainer) w ↦ items.map (·.identity) = visited.map entryIdentity ∧
      Listed id dockerId list w) _ ⟨rfl, hlisted⟩
  intro visited entry rest items w _ ⟨hitems, hlisted⟩
  apply (wp_listEntry (fun _ _ h ↦ h.keeps_listed) hlisted).imp
  rintro (e | item) w hitem
  · exact hitem
  · refine ⟨?_, hitem.2⟩
    rw [map_append, map_append, hitems, map_singleton, hitem.1]
    rfl

theorem wp_listManaged (hknown : w.Known id) :
    wp (watching id dockerId) (fun _ _ _ ↦ True)
      (onOutcome (Viewed id dockerId) fun _ ↦ Watch.Known id) listManaged w := by
  have hlist : wp (watching id dockerId) (fun _ _ _ ↦ True)
      (onOutcome (Listed id dockerId) fun _ ↦ Watch.Known id)
      (await (.listContainers [managedLabel])) w :=
    (wp_ask (m := watching id dockerId) (c := NodeCall.listContainers [managedLabel])).mpr
      fun x hx ↦ ⟨trivial, listed_of_listing hknown hx⟩
  apply wp.bind hlist
  · intro list w hlisted
    apply wp.bind (wp_items hlisted)
    · exact fun items w hitems ↦ viewed_of_listed hitems.2 hitems.1
    · exact fun _ _ hfalse ↦ hfalse.elim
  · exact fun _ _ hknown ↦ hknown

theorem probing_quiet : Probing (Quiet id dockerId) := by
  constructor <;> simp [Quiet]

/-- No kill is known of, and the first one is still to be looked up if there is one. -/
structure Watch.Missing (id dockerId : String) (w : Watch) : Prop where
  unknown : getOomKilledAt w.node id = none
  first : w.Known id ∨ w.Due id dockerId

/-- The monitor has looked the container up, and what it was shown is the first kill. -/
structure Watch.LookedUp (id : String) (info : DockerContainer) (w : Watch) : Prop where
  unknown : getOomKilledAt w.node id = none
  first : w.observed.head? = info.killedAt.head?
  dated : info.oomKilled = true → ∃ time, info.finishedAt = some time ∧ 0 < time

theorem Watch.Unmoved.keeps_first (h : w.Unmoved id dockerId w')
    (hw : w.Known id ∨ w.Due id dockerId) : w'.Known id ∨ w'.Due id dockerId :=
  hw.imp h.keeps_known h.keeps_due

theorem Watch.Unmoved.keeps_missing (h : w.Unmoved id dockerId w') (hw : w.Missing id dockerId) :
    w'.Missing id dockerId :=
  ⟨h.known.trans hw.unknown, h.keeps_first hw.first⟩

theorem Watch.Unmoved.keeps_lookedUp (h : w.Unmoved id dockerId w') (hw : w.LookedUp id info) :
    w'.LookedUp id info :=
  ⟨h.known.trans hw.unknown, h.observed ▸ hw.first, hw.dated⟩

theorem oomState_respondNode_inspect {other : String} {x : NodeChoice} :
    (respondNode (.inspect other) x node).2 = node.afterExits x.exits := by
  obtain heq | heq := @respondNode_cases (.inspect other) x node
  · exact heq
  · rw [heq]
    rfl

theorem lookedUp_of_missing {x : WatchChoice} (hx : WatchLaw id dockerId (.inspect dockerId) x w)
    (hw : w.Missing id dockerId) : ∃ info,
      (watchRespond dockerId (.inspect dockerId) x w).1 = .ok info ∧
        (watchRespond dockerId (.inspect dockerId) x w).2.LookedUp id info := by
  obtain ⟨record, hwatch⟩ := hx.watchable
  have hfound := hwatch.found
  have hlasts := hx.lasts
  rw [oomState_respondNode_inspect] at hfound hlasts
  have hanswer : (respondNode (.inspect dockerId) x.base x.elsewhere).1 = .ok record := by
    simp only [respondNode, hx.inspects rfl, serve, hfound]
  refine ⟨record, hanswer, ?_⟩
  unfold watchRespond
  simp only [hanswer, Watch.note, if_true]
  refine ⟨?_, ?_, hwatch.dated⟩
  · rw [oomState_respondNode_inspect, ← hw.unknown, getOomKilledAt, getOomKilledAt, ← hx.own]
    rfl
  · obtain hknown | hdue := hw.first
    · rw [Watch.Known, hw.unknown] at hknown
      rw [head?_eq_none_iff.mp hknown.symm]
      rfl
    · obtain ⟨shown, hfresh, -, hobserved, hkilled⟩ := hdue.shown
      obtain rfl : shown = record := some.inj ((hlasts shown hfresh).symm.trans hfound)
      obtain ⟨time, rest, hcons⟩ := exists_cons_of_ne_nil hkilled
      simp [hobserved, hcons]

theorem among_setOom {time : Time} (hw : w.LookedUp id info) (hkilled : info.oomKilled = true)
    (htime : info.finishedAt = some time) :
    Among (watching id dockerId) (unmovedContract id dockerId) (fun _ _ ↦ Watch.Known id)
      (await (.setOom id time)) () w := by
  apply Among.ask
  intro w' hrely x hx _
  refine ⟨trivial, ?_⟩
  have hw' := hrely.keeps_lookedUp hw
  have hset : getOomKilledAt (respondNode (.setOom id time) x.base x.elsewhere).2 id =
      some time := by
    rw [respondNode_of_isMemory (c := .setOom id time) trivial]
    exact AList.lookup_insert _
  have hfirst : info.killedAt.head? = some time := by
    simp [DockerContainer.killedAt, hkilled, htime]
  exact hset.trans (hw'.first.trans hfirst).symm

/-- What the monitor finds in its map. -/
def Remembered (id dockerId : String) (known : Option Time) (w : Watch) : Prop :=
  if known.isNone then w.Missing id dockerId else w.Known id

theorem among_getOom (hw : w.Known id ∨ w.Due id dockerId) :
    Among (watching id dockerId) (unmovedContract id dockerId)
      (onExit (fun known _ ↦ Remembered id dockerId known) fun _ _ ↦ Watch.Known id)
      (await (.getOom id)) () w := by
  intro w' hrely x hx _
  refine ⟨trivial, ?_⟩
  have hquiet : Quiet id dockerId (.getOom id) := trivial
  have hunmoved := unmoved_of_quiet hquiet hx
  have hfirst := hunmoved.keeps_first (hrely.keeps_first hw)
  have hanswer : ((watching id dockerId).respond (.getOom id) x w').1 =
      .ok (getOomKilledAt w'.node id) := by
    change (respondNode (.getOom id) x.base x.elsewhere).1 = _
    rw [respondNode_of_isMemory (c := .getOom id) trivial, getOomKilledAt, ← hx.own]
    rfl
  rw [hanswer]
  change Remembered id dockerId (getOomKilledAt w'.node id) (watchRespond dockerId _ x w').2
  unfold Remembered
  split
  next hnone => exact ⟨hunmoved.known.trans (Option.isNone_iff_eq_none.mp hnone), hfirst⟩
  next hsome =>
    obtain hknown | hdue := hfirst
    · exact hknown
    · rw [← hunmoved.known, hdue.unknown] at hsome
      exact absurd rfl hsome

theorem among_captureOomSignal {c : Container} (hid : c.id = id)
    (hdocker : c.dockerContainerId = dockerId) (hw : w.Known id ∨ w.Due id dockerId) :
    Among (watching id dockerId) (unmovedContract id dockerId) (fun _ _ ↦ Watch.Known id)
      (captureOomSignal c) () w := by
  subst hid hdocker
  apply Among.bind (among_getOom hw)
  · intro known _ w hremembered
    simp only [onExit_ok, Remembered] at hremembered
    apply Among.onlyIf
    · intro hnone
      rw [if_pos hnone] at hremembered
      apply Among.tryCatch (E := fun _ _ ↦ Watch.Known c.id)
      · apply Among.bind (R := onExit (fun info _ ↦ Watch.LookedUp c.id info)
          fun _ _ ↦ Watch.Known c.id)
        · intro w' hrely x hx _
          refine ⟨trivial, ?_⟩
          obtain ⟨info, hanswer, hlooked⟩ :=
            lookedUp_of_missing hx (hrely.keeps_missing hremembered)
          have hrespond : ((watching c.id c.dockerContainerId).respond
              (.inspect c.dockerContainerId) x w').1 = .ok info := hanswer
          rw [hrespond]
          exact hlooked
        · intro info _ w hlooked
          apply Among.onlyIf
          · intro hkilled
            obtain ⟨time, htime, hpos⟩ := hlooked.dated hkilled
            have hfinished : info.finishedAt.filter (0 < ·) = some time := by
              rw [htime]
              exact if_pos (decide_eq_true hpos)
            simp only [hfinished]
            apply (among_setOom hlooked hkilled htime).imp
            rintro (e | a) _ w hknown <;> exact hknown
          · intro hspared
            have hfirst := hlooked.first
            rw [DockerContainer.killedAt, if_neg hspared] at hfirst
            exact hlooked.unknown.trans hfirst.symm
        · exact fun _ _ _ hknown ↦ hknown
      · exact fun _ _ _ hknown ↦ hknown
    · intro hsome
      rwa [if_neg hsome] at hremembered
  · exact fun _ _ _ hknown ↦ hknown

variable {containers : List Container}

/-- Looking another container up is quiet. -/
theorem asks_captureOther (hviewed : Viewed id dockerId containers w) {other : Container}
    (hother : other ∈ containers) (hne : other.id ≠ id) :
    Asks (Quiet id dockerId) (captureOomSignal other) := by
  have hdocker : other.dockerContainerId ≠ dockerId :=
    fun heq ↦ hne ((hviewed.sole other hother).mpr heq)
  exact asks_captureOomSignal trivial hdocker trivial fun _ ↦ hne

theorem wp_captureExited (hviewed : Viewed id dockerId containers w) (hshown : w'.Known id ∨
      w'.Due id dockerId ∧ ∃ c ∈ containers, c.id = id ∧ c.state = .stopped) :
    wp (watching id dockerId) (fun _ _ _ ↦ True) (fun _ ↦ Watch.Known id)
      (Program.allSettled turns ((containers.filter (·.state = .stopped)).map captureOomSignal))
      w' := by
  have hturn : Quiet id dockerId turns.turn := trivial
  by_cases hexited : ∃ c ∈ containers, c.id = id ∧ c.state = .stopped
  · obtain ⟨c, hc, hid, hstopped⟩ := hexited
    have hmem : c ∈ containers.filter (·.state = .stopped) :=
      mem_filter.mpr ⟨hc, decide_eq_true hstopped⟩
    obtain ⟨before, after, hsplit⟩ := append_of_mem hmem
    have hnodup : ((containers.filter (·.state = .stopped)).map (·.id)).Nodup :=
      hviewed.ids.sublist (filter_sublist.map _)
    rw [hsplit, map_append, map_cons] at hnodup
    have hothers : ∀ other ∈ before ++ after,
        Asks (Quiet id dockerId) (captureOomSignal other) := by
      intro other hother
      have hlisted : other ∈ before ++ c :: after := by
        simp only [mem_append, mem_cons] at hother ⊢
        tauto
      rw [← hsplit] at hlisted
      apply asks_captureOther hviewed (mem_filter.mp hlisted).1
      intro heq
      have hmoved := nodup_middle.mp hnodup
      rw [← map_append] at hmoved
      apply (nodup_cons.mp hmoved).1
      rw [hid, ← heq]
      exact List.mem_map_of_mem hother
    rw [hsplit, map_append]
    have hbatch : Among (watching id dockerId) (unmovedContract id dockerId)
        (fun _ _ ↦ Watch.Known id) (Program.allSettled turns (before.map captureOomSignal ++
          captureOomSignal c :: after.map captureOomSignal)) () w' := by
      apply Among.allSettled hturn (fun _ _ _ ↦ unmoved_of_quiet) (fun _ _ h ↦ h.keeps_known)
      · intro task htask
        obtain ⟨other, hother, rfl⟩ := List.mem_map.mp htask
        exact hothers other (mem_append_left _ hother)
      · intro task htask
        obtain ⟨other, hother, rfl⟩ := List.mem_map.mp htask
        exact hothers other (mem_append_right _ hother)
      · apply among_captureOomSignal hid ((hviewed.sole c hc).mp hid)
        exact hshown.imp_right fun hdue ↦ hdue.1
    exact hbatch.wp
  · have hknown := hshown.resolve_right fun hdue ↦ hexited hdue.2
    apply wp_of_quiet (Asks.allSettled hturn _) (fun _ _ h ↦ h.keeps_known) hknown
    intro task htask
    obtain ⟨other, hother, rfl⟩ := List.mem_map.mp htask
    obtain ⟨hmem, hstopped⟩ := mem_filter.mp hother
    apply asks_captureOther hviewed hmem
    exact fun hid ↦ hexited ⟨other, hmem, hid, of_decide_eq_true hstopped⟩

/-- What the tick does once it has listed the containers. -/
theorem wp_afterListing (hviewed : Viewed id dockerId containers w) :
    wp (watching id dockerId) (fun _ _ _ ↦ True) (fun _ ↦ Watch.Known id) (do
      await (.prune (containers.map (·.id)))
      let _ ← Program.allSettled turns ((containers.filter (·.state = .running)).map checkOne)
      let _ ← Program.allSettled turns
        ((containers.filter (·.state = .stopped)).map captureOomSignal)
      .pure () : NodeProgram Unit) w := by
  obtain ⟨c, hc, hid, hsettled⟩ := hviewed.shown
  have hprune : Quiet id dockerId (.prune (containers.map (·.id))) :=
    hid ▸ List.mem_map_of_mem hc
  apply wp.bind (wp_memory hprune trivial (fun _ _ h ↦ h.keeps_settled) hsettled)
  · intro _ w hsettled
    have hrunning : Asks (Quiet id dockerId) (Program.allSettled turns
        ((containers.filter (·.state = .running)).map checkOne)) := by
      apply Asks.allSettled trivial
      intro task htask
      obtain ⟨other, -, rfl⟩ := List.mem_map.mp htask
      exact asks_checkOne probing_quiet trivial
    apply wp.bind (wp_allSettled (wp_of_quiet hrunning (fun _ _ h ↦ h.keeps_settled) hsettled))
    · intro _ w hsettled
      have hcaptured := wp_captureExited hviewed
        (hsettled.imp_right fun hdue ↦ ⟨hdue.1, c, hc, hid, hdue.2⟩)
      apply wp.bind hcaptured
      · exact fun _ _ hknown ↦ hknown
      · exact fun _ _ hknown ↦ hknown
    · exact fun _ _ hfalse ↦ hfalse.elim
  · exact fun _ _ hfalse ↦ hfalse.elim

theorem wp_checkAll (hknown : w.Known id) :
    wp (watching id dockerId) (fun _ _ _ ↦ True) (fun _ ↦ Watch.Known id) checkAll w := by
  apply wp.bind (wp_listManaged hknown)
  · exact fun containers w hviewed ↦ wp_afterListing hviewed
  · exact fun _ _ hknown ↦ hknown

theorem wp_leaveTick (hknown : w.Known id) :
    wp (watching id dockerId) (fun _ _ _ ↦ True) (fun _ ↦ Watch.Known id) (await .leaveTick) w := by
  apply (wp_ask (m := watching id dockerId) (c := NodeCall.leaveTick)).mpr
  intro x hx
  refine ⟨trivial, ?_⟩
  have hanswer : respondNode .leaveTick x.base x.elsewhere =
      serve x.base .leaveTick (x.elsewhere.afterExits x.base.exits) :=
    respondNode_of_isMemory (c := .leaveTick) trivial _ _
  have hknown' : x.elsewhere.oomState.lookup id = w.observed.head? := hx.own ▸ hknown
  change (watchRespond dockerId .leaveTick x w).2.Known id
  unfold watchRespond
  rw [hanswer]
  exact hknown'

theorem wp_tick (hknown : w.Known id) :
    wp (watching id dockerId) (fun _ _ _ ↦ True) (fun _ ↦ Watch.Known id) tick w := by
  have henter : Quiet id dockerId .enterTick := trivial
  apply wp.bind (wp_memory henter trivial (fun _ _ h ↦ h.keeps_known) hknown)
  · intro (entered : Bool) w hknown
    rw [wp_onlyIf]
    split
    · apply wp_finallyDo.mpr
      apply wp_tryCatch.mpr
      apply (wp_checkAll hknown).imp
      intro r w hknown
      have hleft : wp (watching id dockerId) (fun _ _ _ ↦ True)
          (onOutcome (fun _ ↦ Watch.Known id) fun _ ↦ Watch.Known id) (await .leaveTick) w := by
        apply (wp_leaveTick hknown).imp
        rintro (e | a) w hknown <;> exact hknown
      cases r <;> exact hleft
    · exact hknown
  · exact fun _ _ hfalse ↦ hfalse.elim

theorem known_of_ticks {steps : List (HistoryStep Unit AgentError Watch)} (hknown : w.Known id)
    (ticks : Ticks id dockerId w steps w') : w'.Known id := by
  apply (ticks.history.invariant _ ticks.returned hknown).2
  intro step hreturned execution hbefore
  rw [hreturned] at execution
  exact execution.post_returned (wp_tick hbefore)

end Tick

/-! ## Ticks -/

section Theorem

variable {id dockerId : String} {w w' : Watch} {steps : List (HistoryStep Unit AgentError Watch)}

/--
After every tick the monitor has the last kill that it was shown exactly if that is the first one
too.
-/
theorem killed_last_iff_first (hw : w.Unwatched id) (ticks : Ticks id dockerId w steps w') :
    getOomKilledAt w'.node id = w'.observed.getLast? ↔
      w'.observed.head? = w'.observed.getLast? := by
  have hstart : w.Known id := by rw [Watch.Known, hw.unknown, hw.observed]; rfl
  have hknown : getOomKilledAt w'.node id = w'.observed.head? := known_of_ticks hstart ticks
  rw [hknown]

end Theorem

/-! ## Two kills -/

def killedContainer (time : Time) : DockerContainer where
  status := .exited
  oomKilled := true
  finishedAt := some time
  labels := [("privos.managed", "true"), ("privos.id", "notes")]

/-- The kill under way, or else the first one, and the second one from then on. -/
def killShown (w : Watch) : DockerContainer :=
  w.fresh.getD (killedContainer (if w.observed = [] then 1000 else 2000))

/-- Only looking succeeds. -/
def killedTwice (c : nodeSignature.Call) (w : Watch) : WatchChoice where
  base := match (c : NodeCall) with
    | .listContainers _ => {}
    | .inspect _ => {}
    | _ => { failure := some noSuchContainer }
  elsewhere := { w.node with containers := AList.insert "d1" (killShown w) ∅ }

def unwatched : Watch where
  node := {
    containers := ∅
    desired := .missing
    bootId := "boot-1"
    queue := []
    healthState := ∅
    oomState := ∅
    busy := false
    clock := 0 }
  observed := []
  fresh := none

def afterTick (w : Watch) : Watch := ((watching "notes" "d1").run killedTwice tick w).2

/-- A kill under way is one of the two. -/
def OneOfTwo (w : Watch) : Prop :=
  ∀ record, w.fresh = some record → record = killedContainer 1000 ∨ record = killedContainer 2000

theorem killShown_of_oneOfTwo {w : Watch} (hw : OneOfTwo w) :
    killShown w = killedContainer 1000 ∨ killShown w = killedContainer 2000 := by
  unfold killShown
  cases hfresh : w.fresh with
  | some record => exact hw record hfresh
  | none =>
    split
    · exact .inl rfl
    · exact .inr rfl

theorem containers_killedTwice (c : NodeCall) (w : Watch) :
    (respondNode c (killedTwice c w).base (killedTwice c w).elsewhere).2.containers =
      AList.insert "d1" (killShown w) ∅ := by
  cases c <;> rfl

theorem watchable_killed {time : Time} (htime : 0 < time)
    (hcontainers : node.containers = AList.insert "d1" (killedContainer time) ∅) :
    Watchable "notes" "d1" node (killedContainer time) where
  found := by rw [hcontainers]; exact AList.lookup_insert _
  managed := rfl
  hasId := rfl
  sole := by
    intro entry hentry _
    have hfound := (mem_matching.mp hentry).1
    by_contra hne
    rw [hcontainers, AList.lookup_insert_ne hne] at hfound
    cases hfound
  dated _ := ⟨time, rfl, htime⟩

theorem lawful_killedTwice (c : NodeCall) (w : Watch) (hw : OneOfTwo w) :
    (watching "notes" "d1").permits c (killedTwice c w) w where
  own := rfl
  watchable := by
    have hcontainers := containers_killedTwice c w
    rcases killShown_of_oneOfTwo hw with hshown | hshown <;> rw [hshown] at hcontainers
    · exact ⟨_, watchable_killed (by decide) hcontainers⟩
    · exact ⟨_, watchable_killed (by decide) hcontainers⟩
  inspects hc := by rw [hc]; rfl
  lasts := by
    intro record hfresh
    rw [containers_killedTwice, killShown, hfresh]
    exact AList.lookup_insert _

/-- A kill is only noted from a listing. -/
theorem Watch.fresh_note {c : NodeCall} {answer : Except AgentError c.Answer} {dockerId : String}
    {w : Watch} (hc : ∀ labels, c ≠ .listContainers labels)
    (hfresh : (w.note dockerId c answer).fresh = some record) : w.fresh = some record := by
  cases c with
  | listContainers labels => exact absurd rfl (hc labels)
  | leaveTick => cases hfresh
  | inspect other =>
    cases answer with
    | error e => exact hfresh
    | ok found =>
      simp only [note] at hfresh
      split at hfresh <;> exact hfresh
  | _ => cases answer <;> exact hfresh

theorem Watch.fresh_note_listing {dockerId : String} {list : List (String × DockerContainer)}
    {w : Watch}
    (hfresh : (w.note dockerId (.listContainers labels) (.ok list)).fresh = some record) :
    w.fresh = some record ∨ (dockerId, record) ∈ list := by
  simp only [note] at hfresh
  split at hfresh
  next shown hlookup =>
    obtain ⟨before, after, rfl, -⟩ := lookup_eq_some_iff.mp hlookup
    split at hfresh
    · split at hfresh
      · cases hfresh
      · obtain rfl := some.inj hfresh
        exact .inr (mem_append_right before mem_cons_self)
    · exact .inl hfresh
  next => exact .inl hfresh

theorem oneOfTwo_respond (c : NodeCall) (w : Watch) (hw : OneOfTwo w) :
    OneOfTwo ((watching "notes" "d1").respond c (killedTwice c w) w).2 := by
  intro record hfresh
  by_cases hc : ∃ labels, c = .listContainers labels
  · obtain ⟨labels, rfl⟩ := hc
    obtain hbefore | hlisted := @Watch.fresh_note_listing labels _ _ _ _ hfresh
    · exact hw record hbefore
    · have hfound := (mem_matching.mp hlisted).1
      obtain rfl : killShown w = record :=
        some.inj ((AList.lookup_insert _).symm.trans hfound)
      exact killShown_of_oneOfTwo hw
  · let answered := respondNode c (killedTwice c w).base (killedTwice c w).elsewhere
    have hnoted : (({ w with node := answered.2 } : Watch).note "d1" c answered.1).fresh =
        some record := hfresh
    have hkept := Watch.fresh_note (fun labels heq ↦ hc ⟨labels, heq⟩) hnoted
    exact hw record hkept

/-- A tick that ends is one more tick. -/
theorem Ticks.tick {w w' : Watch} {steps : List (HistoryStep Unit AgentError Watch)}
    (ticks : Ticks "notes" "d1" w steps w') (hw : OneOfTwo w')
    (hends : ((watching "notes" "d1").run killedTwice tick w').1 = .ok ()) :
    Ticks "notes" "d1" w (steps ++ [⟨(), .returned (), w', afterTick w'⟩]) (afterTick w') where
  history := by
    have hexecutes := Machine.executes_run_under (p := HealthMonitor.tick) lawful_killedTwice
      oneOfTwo_respond hw
    rw [hends] at hexecutes
    exact .step ticks.history hexecutes
  returned := by
    intro step hstep
    obtain hearlier | hlast := mem_append.mp hstep
    · exact ticks.returned step hearlier
    · rw [mem_singleton.mp hlast]

theorem ticks_first : Ticks "notes" "d1" unwatched
    [⟨(), .returned (), unwatched, afterTick unwatched⟩] (afterTick unwatched) := by
  have hstart : Ticks "notes" "d1" unwatched [] unwatched := ⟨.start, fun _ hstep ↦ nomatch hstep⟩
  exact hstart.tick (fun record hfresh ↦ nomatch hfresh) rfl

/-- The container has been started again after the first kill, and killed a second time. -/
theorem ticks_second : Ticks "notes" "d1" unwatched
    [⟨(), .returned (), unwatched, afterTick unwatched⟩,
      ⟨(), .returned (), afterTick unwatched, afterTick (afterTick unwatched)⟩]
    (afterTick (afterTick unwatched)) := by
  have hrested : (afterTick unwatched).fresh = none := rfl
  exact ticks_first.tick (fun record hfresh ↦ nomatch hrested.symm.trans hfresh) rfl

theorem killed_last_iff_first_once :
    getOomKilledAt (afterTick unwatched).node "notes" = (afterTick unwatched).observed.getLast? ↔
      (afterTick unwatched).observed.head? = (afterTick unwatched).observed.getLast? :=
  killed_last_iff_first ⟨rfl, rfl⟩ ticks_first

/-- The monitor goes on to show the first kill after it has been shown the second. -/
theorem second_kill_unseen : ¬ ∀ (id dockerId : String) (w w' : Watch)
    (steps : List (HistoryStep Unit AgentError Watch)), w.Unwatched id →
      Ticks id dockerId w steps w' → getOomKilledAt w'.node id = w'.observed.getLast? := by
  intro h
  have hlast := h "notes" "d1" _ _ _ ⟨rfl, rfl⟩ ticks_second
  exact absurd hlast (by decide)

end PrivosCluster.Agent
