import PrivosCluster.Replication.Convergence
import PrivosCluster.Routing.Publication

/-!
# Convergence of the routing tables

Any number of masters publish the tables of one database. A pass takes a revision, runs the three
queries, and pushes the runtime tables and then the ingress tables; the agents keep the table with
the highest revision.
-/

namespace PrivosCluster.Routing

open Replication List Option

/-- The documents of the three collections that the publisher reads. -/
structure RoutingDocuments where
  apps : List MasterApp
  nodes : List FleetNode
  hosts : List AppHostRecord

inductive Query where
  | apps
  | nodes
  | hosts
deriving DecidableEq

instance : Fintype Query where
  elems := {.apps, .nodes, .hosts}
  complete query := by cases query <;> decide

@[reducible] def Query.Answer : Query → Type
  | .apps => List MasterApp
  | .nodes => List FleetNode
  | .hosts => List AppHostRecord

inductive TableKind where
  | runtime
  | ingress
deriving DecidableEq

/-- A table of an agent, by its kind and the id of the agent's node. -/
abbrev TableAddress := TableKind × String

inductive PublishedTable where
  | runtime (apps : List RuntimeTableEntry)
  | ingress (table : IngressTable)
deriving DecidableEq

/-- What the three queries return. -/
def RoutingDocuments.read (db : RoutingDocuments) : (query : Query) → query.Answer
  | .apps => db.apps.filter appsQuery
  | .nodes => db.nodes.filter nodesQuery
  | .hosts => db.hosts.filter hostsQuery

def snapshotOf (baseDomain : String) (reads : (query : Query) → query.Answer) : HostTableSnapshot :=
  buildSnapshot baseDomain (reads .apps) (reads .nodes) (reads .hosts)

/-- The tables computed from the current documents. -/
def RoutingDocuments.snapshot (db : RoutingDocuments) (baseDomain : String) : HostTableSnapshot :=
  snapshotOf baseDomain db.read

def tableFor (snapshot : HostTableSnapshot) : TableAddress → PublishedTable
  | (.runtime, nodeId) => .runtime (snapshot.runtimeEntries nodeId)
  | (.ingress, _) => .ingress ⟨snapshot.rules, snapshot.signingKeys⟩

def storedTable (agents : Agents) : TableAddress → Option (Int × PublishedTable)
  | (.runtime, nodeId) => (agents nodeId).runtimeTable.map fun stored ↦
      (stored.revision, .runtime stored.table)
  | (.ingress, nodeId) => (agents nodeId).ingressTable.map fun stored ↦
      (stored.revision, .ingress stored.table)

/-- A push that reaches the agent, and whether its answer is a success. -/
def receive (baseDomain : String) {Q : Type} (bootTimestamp : Q → Int)
    (push : Push TableAddress Q Query.Answer) (now : Time) (agents : Agents) : Bool × Agents :=
  let snapshot := snapshotOf baseDomain push.reads
  match push.address with
  | (.runtime, nodeId) =>
    let (reply, tables) := (agents nodeId).putRuntime
      ⟨bootTimestamp push.sender, push.revision, snapshot.runtimeEntries nodeId⟩ now
    (reply.status < 300, agents.set nodeId tables)
  | (.ingress, nodeId) =>
    let (reply, tables) := (agents nodeId).putIngress
      ⟨bootTimestamp push.sender, push.revision, snapshot.rules, snapshot.signingKeys⟩ now
    (reply.status < 300, agents.set nodeId tables)

/-- The publishers of the fleet: runtime tables first, then ingress. -/
def publishing (baseDomain : String) {Q : Type} (bootTimestamp : Q → Int) :
    Publishing RoutingDocuments TableAddress PublishedTable Agents Time Q Query.Answer where
  read := RoutingDocuments.read
  stages reads :=
    [(snapshotOf baseDomain reads).runtimeNodes.map fun node ↦ (.runtime, node.nodeId),
      (snapshotOf baseDomain reads).ingressNodes.map fun node ↦ (.ingress, node.nodeId)]
  content reads address := tableFor (snapshotOf baseDomain reads) address
  stored := storedTable
  receive := receive baseDomain bootTimestamp

theorem accept_stored {α : Type} (bootTimestamp revision : Int) (table : α) (now : Time)
    (current : Option (StoredTable α)) (wrap : α → PublishedTable) :
    ((accept bootTimestamp revision table now current).2.map fun stored ↦
        (stored.revision, wrap stored.table)) =
      keepNewer revision (wrap table) (current.map fun stored ↦ (stored.revision, wrap stored.table)) := by
  unfold accept isNewer keepNewer
  cases current with
  | none => rfl
  | some stored =>
    by_cases hlt : stored.revision < revision
    · simp [hlt]
    · simp [hlt]

theorem storedTable_set_self (agents : Agents) (kind : TableKind) (nodeId : String)
    (tables : HostTables) :
    storedTable (agents.set nodeId tables) (kind, nodeId) =
      storedTable (fun _ ↦ tables) (kind, nodeId) := by
  have hself : agents.set nodeId tables nodeId = tables := if_pos rfl
  cases kind with
  | runtime | ingress =>
    unfold storedTable
    dsimp only
    rw [hself]

variable {agents : Agents} {nodeId : String} {revision : Int}

theorem storedTable_set_of_ne {kind : TableKind} {other : String} {tables : HostTables}
    (h : other ≠ nodeId) :
    storedTable (agents.set nodeId tables) (kind, other) = storedTable agents (kind, other) := by
  have hother : agents.set nodeId tables other = agents other := if_neg h
  cases kind with
  | runtime | ingress =>
    unfold storedTable
    dsimp only
    rw [hother]

/-- A push to an agent leaves the newer table of its kind and the other table as it was, or changes
nothing and is not answered with success. -/
theorem receive_cases (baseDomain : String) {Q : Type} (bootTimestamp : Q → Int)
    (push : Push TableAddress Q Query.Answer) (now : Time) (agents : Agents) :
    ∃ tables, (receive baseDomain bootTimestamp push now agents).2 = agents.set push.address.2 tables ∧
      (∀ kind, kind ≠ push.address.1 →
        storedTable (fun _ ↦ tables) (kind, push.address.2) =
          storedTable agents (kind, push.address.2)) ∧
      ((receive baseDomain bootTimestamp push now agents).1 →
        storedTable (fun _ ↦ tables) push.address =
          keepNewer push.revision (tableFor (snapshotOf baseDomain push.reads) push.address)
            (storedTable agents push.address)) ∧
      ((receive baseDomain bootTimestamp push now agents).1 = false →
        tables = agents push.address.2) := by
  obtain ⟨sender, revision, reads, kind, nodeId⟩ := push
  cases kind with
  | runtime =>
    let body : RuntimeTableBody :=
      ⟨bootTimestamp sender, revision, (snapshotOf baseDomain reads).runtimeEntries nodeId⟩
    apply Exists.intro ((agents nodeId).putRuntime body now).2
    apply And.intro rfl
    cases (agents nodeId).putRuntime_cases body now with
    | inl htaken =>
      rw [htaken.2]
      apply And.intro
      · intro kind hkind
        cases kind with
        | runtime => exact absurd rfl hkind
        | ingress => rfl
      · apply And.intro
        · intro _
          exact accept_stored _ _ _ now _ PublishedTable.runtime
        · intro hrefused
          exact absurd htaken.1 (of_decide_eq_false hrefused)
    | inr hrefused =>
      rw [hrefused.2]
      apply And.intro
      · intro kind _
        cases kind <;> rfl
      · apply And.intro
        · intro htaken
          exact absurd (of_decide_eq_true htaken) hrefused.1
        · intro _
          rfl
  | ingress =>
    let body : IngressTableBody := ⟨bootTimestamp sender, revision,
      (snapshotOf baseDomain reads).rules, (snapshotOf baseDomain reads).signingKeys⟩
    apply Exists.intro ((agents nodeId).putIngress body now).2
    apply And.intro rfl
    cases (agents nodeId).putIngress_cases body now with
    | inl htaken =>
      rw [htaken.2]
      apply And.intro
      · intro kind hkind
        cases kind with
        | runtime => rfl
        | ingress => exact absurd rfl hkind
      · apply And.intro
        · intro _
          exact accept_stored _ _ _ now _ PublishedTable.ingress
        · intro hrefused
          exact absurd htaken.1 (of_decide_eq_false hrefused)
    | inr hrefused =>
      rw [hrefused.2]
      apply And.intro
      · intro kind _
        cases kind <;> rfl
      · apply And.intro
        · intro htaken
          exact absurd (of_decide_eq_true htaken) hrefused.1
        · intro _
          rfl

theorem publishing_lawful (baseDomain : String) {Q : Type} (bootTimestamp : Q → Int) :
    (publishing baseDomain bootTimestamp).Lawful where
  refused push now agents address h := by
    obtain ⟨tables, hagents, -, -, hrefused⟩ :=
      receive_cases baseDomain bootTimestamp push now agents
    have hsame : tables = agents push.address.2 := hrefused h
    obtain ⟨kind, nodeId⟩ := address
    show storedTable (receive baseDomain bootTimestamp push now agents).2 (kind, nodeId) =
      storedTable agents (kind, nodeId)
    rw [hagents, hsame]
    by_cases hid : nodeId = push.address.2
    · rw [hid, storedTable_set_self]
      cases kind <;> rfl
    · rw [storedTable_set_of_ne hid]
  taken push now agents h := by
    obtain ⟨tables, hagents, -, htaken, -⟩ :=
      receive_cases baseDomain bootTimestamp push now agents
    show storedTable (receive baseDomain bootTimestamp push now agents).2 push.address = _
    have hself := storedTable_set_self agents push.address.1 push.address.2 tables
    rw [hagents]
    exact hself.trans (htaken h)
  frame push now agents address h := by
    obtain ⟨tables, hagents, hother, -, -⟩ :=
      receive_cases baseDomain bootTimestamp push now agents
    obtain ⟨kind, nodeId⟩ := address
    show storedTable (receive baseDomain bootTimestamp push now agents).2 (kind, nodeId) =
      storedTable agents (kind, nodeId)
    rw [hagents]
    by_cases hid : nodeId = push.address.2
    · subst hid
      have hkind : kind ≠ push.address.1 := fun heq ↦ h (Prod.ext heq rfl)
      rw [storedTable_set_self, hother kind hkind]
    · rw [storedTable_set_of_ne hid]

/-- A run of the fleet: the documents, the masters, the pushes in flight and the agents. -/
abbrev FleetState (Q : Type) := State RoutingDocuments TableAddress Agents Q Query.Answer

/-- Before the first write, with no table on any agent. -/
def FleetState.initial (Q : Type) : FleetState Q := State.initial ⟨[], [], []⟩ fun _ ↦ {}

/-- The revisions of both tables are at least what they were. -/
def RevisionsKept (before after : HostTables) : Prop :=
  (∀ stored, before.runtimeTable = some stored →
    ∃ later, after.runtimeTable = some later ∧ stored.revision ≤ later.revision) ∧
  ∀ stored, before.ingressTable = some stored →
    ∃ later, after.ingressTable = some later ∧ stored.revision ≤ later.revision

section Fleet

variable {baseDomain : String} {Q : Type} {bootTimestamp : Q → Int}

theorem revisionsKept_of_atLeast {before after : Agents}
    (h : ∀ revision address, (publishing baseDomain bootTimestamp).AtLeast before revision address →
      (publishing baseDomain bootTimestamp).AtLeast after revision address) :
    RevisionsKept (before nodeId) (after nodeId) := by
  constructor
  · intro stored hstored
    have hbefore : storedTable before (.runtime, nodeId) =
        some (stored.revision, .runtime stored.table) := by
      unfold storedTable
      dsimp only
      rw [hstored]
      rfl
    obtain ⟨pair, hpair, hle⟩ := h stored.revision (.runtime, nodeId) ⟨_, hbefore, le_rfl⟩
    obtain ⟨later, hlater, heq⟩ := map_eq_some_iff.mp hpair
    exact ⟨later, hlater, by rw [← heq] at hle; exact hle⟩
  · intro stored hstored
    have hbefore : storedTable before (.ingress, nodeId) =
        some (stored.revision, .ingress stored.table) := by
      unfold storedTable
      dsimp only
      rw [hstored]
      rfl
    obtain ⟨pair, hpair, hle⟩ := h stored.revision (.ingress, nodeId) ⟨_, hbefore, le_rfl⟩
    obtain ⟨later, hlater, heq⟩ := map_eq_some_iff.mp hpair
    exact ⟨later, hlater, by rw [← heq] at hle; exact hle⟩

theorem holdsRuntime_of_stored {snapshot : HostTableSnapshot}
    (h : storedTable agents (.runtime, nodeId) = some (revision, tableFor snapshot (.runtime, nodeId))) :
    HoldsRuntime snapshot nodeId (agents nodeId) := by
  obtain ⟨stored, hstored, heq⟩ := map_eq_some_iff.mp h
  have htable := PublishedTable.runtime.inj (Prod.mk.inj heq).2
  unfold HoldsRuntime
  rw [hstored, map_some, htable]

theorem holdsIngress_of_stored {snapshot : HostTableSnapshot}
    (h : storedTable agents (.ingress, nodeId) = some (revision, tableFor snapshot (.ingress, nodeId))) :
    HoldsIngress snapshot (agents nodeId) := by
  obtain ⟨stored, hstored, heq⟩ := map_eq_some_iff.mp h
  have htable := PublishedTable.ingress.inj (Prod.mk.inj heq).2
  unfold HoldsIngress
  rw [hstored, map_some, htable]

/-- In every run of any number of masters, stored revisions never decrease; and once every write was
followed by a mark and all pumps are idle, every active node stores the tables of its role as
computed from the current documents. -/
theorem tables_converge [DecidableEq Q] (s : FleetState Q)
    (h : Run (publishing baseDomain bootTimestamp) (FleetState.initial Q) s) :
    (∀ later, Run (publishing baseDomain bootTimestamp) s later →
      ∀ nodeId, RevisionsKept (s.receivers nodeId) (later.receivers nodeId)) ∧
    (s.announced = true → (∀ q, (s.processes q).phase = .idle) →
      ∀ node ∈ s.db.nodes, node.status = .active →
        (node.isRuntime = true →
          HoldsRuntime (s.db.snapshot baseDomain) node.nodeId (s.receivers node.nodeId)) ∧
        (node.isIngress = true →
          HoldsIngress (s.db.snapshot baseDomain) (s.receivers node.nodeId))) := by
  have hlaw := publishing_lawful baseDomain bootTimestamp
  have hI := h.inv hlaw (inv_initial (fun address ↦ by cases address with | mk kind nodeId =>
    cases kind <;> rfl) rfl)
  constructor
  · intro later hlater nodeId
    apply revisionsKept_of_atLeast
    intro revision address hat
    exact hlater.atLeast hlaw hat
  · intro hannounced hidle node hnode hactive
    have hread : node ∈ s.db.read .nodes :=
      mem_filter.mpr ⟨hnode, by simp [nodesQuery, hactive]⟩
    constructor
    · intro hruntime
      have hmem : node ∈ (s.db.snapshot baseDomain).runtimeNodes :=
        mem_filter.mpr ⟨hread, hruntime⟩
      have htarget : (TableKind.runtime, node.nodeId) ∈
          (publishing baseDomain bootTimestamp).targets
            ((publishing baseDomain bootTimestamp).read s.db) :=
        mem_flatten.mpr ⟨_, mem_cons_self, List.mem_map.mpr ⟨node, hmem, rfl⟩⟩
      exact holdsRuntime_of_stored (hI.converged hannounced hidle htarget)
    · intro hingress
      have hmem : node ∈ (s.db.snapshot baseDomain).ingressNodes :=
        mem_filter.mpr ⟨hread, hingress⟩
      have htarget : (TableKind.ingress, node.nodeId) ∈
          (publishing baseDomain bootTimestamp).targets
            ((publishing baseDomain bootTimestamp).read s.db) :=
        mem_flatten.mpr ⟨_, mem_cons_of_mem _ mem_cons_self,
          List.mem_map.mpr ⟨node, hmem, rfl⟩⟩
      exact holdsIngress_of_stored (hI.converged hannounced hidle htarget)

end Fleet

namespace Sample

/-- One master publishes an app on a node with both roles; the first push is delivered twice. -/
def publishActions : List (Replication.Action RoutingDocuments TableAddress Time Unit Query) :=
  [.write ⟨[app "notes" "notes" .mcpV3 ["b1"]], [bothNode], []⟩, .markDirty (), .takeRevision (),
    .read () .hosts, .read () .apps, .read () .nodes, .send (), .deliver 0 0,
    .acknowledge () (.runtime, "b1"), .settle (), .deliver 1 0, .deliver 0 1,
    .acknowledge () (.ingress, "b1"), .settle ()]

def published? : Option (FleetState Unit) :=
  execute (publishing "apps.test" fun _ ↦ 0) (FleetState.initial Unit) publishActions

/-- Every write was announced, the pump is idle, and the node is there. -/
def isConverged (s : FleetState Unit) : Bool :=
  s.announced && (s.processes ()).phase.revision? = none && !(s.processes ()).phase.isRevising &&
    s.db.nodes.contains bothNode

theorem published_isConverged : published?.any isConverged := by decide +kernel

end Sample

theorem tables_converge_published :
    ∃ s, Sample.published? = some s ∧
      HoldsRuntime (s.db.snapshot "apps.test") "b1" (s.receivers "b1") ∧
      HoldsIngress (s.db.snapshot "apps.test") (s.receivers "b1") := by
  obtain ⟨s, hs, hconverged⟩ := (Option.any_eq_true _ _).mp Sample.published_isConverged
  simp only [Sample.isConverged, Bool.and_eq_true, decide_eq_true_eq, Bool.not_eq_true',
    contains_iff_mem] at hconverged
  obtain ⟨⟨⟨hannounced, hrevision⟩, hrevising⟩, hnode⟩ := hconverged
  have hidle : ∀ q, (s.processes q).phase = .idle := fun _ ↦ Phase.eq_idle hrevision hrevising
  have hrun := Run.of_execute hs
  have htables := (tables_converge s hrun).2 hannounced hidle Sample.bothNode hnode rfl
  exact ⟨s, hs, htables.1 rfl, htables.2 rfl⟩

end PrivosCluster.Routing
