import PrivosCluster.Routing.TableAgreement

/-!
# What a publication leaves on the agents

When all pushes of a pass succeed, every runtime node has taken its entries and every ingress node
the rules and the keys, unless it already stored a table with at least that revision. The signing
keys are part of the ingress table, which only the ingress nodes are sent.
-/

namespace PrivosCluster.Routing

/-! ## What an agent stores -/

/-- The agent stores the ingress table of the snapshot. -/
def HoldsIngress (snapshot : HostTableSnapshot) (tables : HostTables) : Prop :=
  tables.ingressTable.map StoredTable.table = some ⟨snapshot.rules, snapshot.signingKeys⟩

/-- The agent stores the entries of this node. -/
def HoldsRuntime (snapshot : HostTableSnapshot) (nodeId : String) (tables : HostTables) : Prop :=
  tables.runtimeTable.map StoredTable.table = some (snapshot.runtimeEntries nodeId)

variable {α : Type}

/-- A second push of the same pass changes nothing. -/
theorem accept_accept (bootTimestamp revision : Int) (table : α) (now : Time)
    (current : Option (StoredTable α)) :
    (accept bootTimestamp revision table now (accept bootTimestamp revision table now current).2).2 =
      (accept bootTimestamp revision table now current).2 := by
  unfold accept
  cases hnewer : isNewer revision current with
  | true => simp [isNewer]
  | false => simp [hnewer]

variable {bootTimestamp : Int}

variable {current : Option (StoredTable α)} {revision : Int} {key : IngressSigningKey}

theorem accept_of_isNewer {table : α} {now : Time} (h : isNewer revision current) :
    (accept bootTimestamp revision table now current).2 =
      some { bootTimestamp, revision, receivedAt := now, table } := by
  unfold accept
  rw [if_pos h]

theorem accept_of_not_isNewer {table : α} {now : Time} (h : isNewer revision current = false) :
    (accept bootTimestamp revision table now current).2 = current := by
  unfold accept
  rw [h]
  rfl

theorem accept_status (bootTimestamp revision : Int) (table : α) (now : Time)
    (current : Option (StoredTable α)) :
    (accept bootTimestamp revision table now current).1.status = 200 := by
  unfold accept
  split <;> rfl

namespace HostTables

/-- A push is answered with success and leaves the newer table, or is refused. -/
theorem putRuntime_cases (tables : HostTables) (body : RuntimeTableBody) (now : Time) :
    ((tables.putRuntime body now).1.status < 300 ∧
      (tables.putRuntime body now).2 = { tables with runtimeTable :=
        (accept body.bootTimestamp body.revision body.apps now tables.runtimeTable).2 }) ∨
    (¬ (tables.putRuntime body now).1.status < 300 ∧ (tables.putRuntime body now).2 = tables) := by
  unfold putRuntime
  by_cases hvalid : body.isValid
  · rw [if_pos hvalid]
    apply Or.inl
    apply And.intro _ rfl
    rw [accept_status]
    decide
  · rw [if_neg hvalid]
    apply Or.inr
    exact ⟨by simp [PutReply.status], rfl⟩

theorem putIngress_cases (tables : HostTables) (body : IngressTableBody) (now : Time) :
    ((tables.putIngress body now).1.status < 300 ∧
      (tables.putIngress body now).2 = { tables with ingressTable :=
        (accept body.bootTimestamp body.revision ⟨body.rules, body.signingKeys⟩ now
          tables.ingressTable).2 }) ∨
    (¬ (tables.putIngress body now).1.status < 300 ∧ (tables.putIngress body now).2 = tables) := by
  unfold putIngress
  by_cases hvalid : body.isValid
  · rw [if_pos hvalid]
    apply Or.inl
    apply And.intro _ rfl
    rw [accept_status]
    decide
  · rw [if_neg hvalid]
    apply Or.inr
    exact ⟨by simp [PutReply.status], rfl⟩

end HostTables

namespace Publication

/-- The runtime table of a node after it was sent the pass. -/
def runtimeStored (pass : Publication) (now : Time) (nodeId : String) (tables : HostTables) :
    HostTables :=
  { tables with runtimeTable := (accept pass.bootTimestamp pass.revision
      (pass.snapshot.runtimeEntries nodeId) now tables.runtimeTable).2 }

/-- The ingress table of a node after it was sent the pass. -/
def ingressStored (pass : Publication) (now : Time) (tables : HostTables) : HostTables :=
  { tables with ingressTable := (accept pass.bootTimestamp pass.revision
      ⟨pass.snapshot.rules, pass.snapshot.signingKeys⟩ now tables.ingressTable).2 }

theorem pushRuntimeTable_of_pushed {pass : Publication} {now : Time} {node : FleetNode}
    {agents : Agents} (h : (pushRuntimeTable pass now node agents).1) :
    (pushRuntimeTable pass now node agents).2 =
      agents.set node.nodeId (pass.runtimeStored now node.nodeId (agents node.nodeId)) := by
  have hstatus := of_decide_eq_true h
  cases (agents node.nodeId).putRuntime_cases (pass.runtimeBody node) now with
  | inl htaken => exact congrArg (agents.set node.nodeId) htaken.2
  | inr hrefused => exact absurd hstatus hrefused.1

theorem pushIngressTable_of_pushed {pass : Publication} {now : Time} {node : FleetNode}
    {agents : Agents} (h : (pushIngressTable pass now node agents).1) :
    (pushIngressTable pass now node agents).2 =
      agents.set node.nodeId (pass.ingressStored now (agents node.nodeId)) := by
  have hstatus := of_decide_eq_true h
  cases (agents node.nodeId).putIngress_cases pass.ingressBody now with
  | inl htaken => exact congrArg (agents.set node.nodeId) htaken.2
  | inr hrefused => exact absurd hstatus hrefused.1

end Publication

/-- After successful pushes each addressed agent has taken its own, once, and no other agent has
changed. -/
theorem pushEach_of_pushed {answers : FleetNode → Bool} {push : FleetNode → Agents → Bool × Agents}
    (update : String → HostTables → HostTables)
    (hidem : ∀ nodeId tables, update nodeId (update nodeId tables) = update nodeId tables)
    (hpush : ∀ node agents, (push node agents).1 →
      (push node agents).2 = agents.set node.nodeId (update node.nodeId (agents node.nodeId)))
    {nodes : List FleetNode} {agents : Agents}
    (h : (pushEach answers push nodes agents).1) (nodeId : String) :
    (pushEach answers push nodes agents).2 nodeId =
      if nodes.any fun node ↦ node.nodeId = nodeId then update nodeId (agents nodeId)
      else agents nodeId := by
  induction nodes generalizing agents with
  | nil => rfl
  | cons node rest ih =>
    unfold pushEach at h ⊢
    cases hanswers : answers node with
    | false =>
      rw [hanswers] at h
      exact absurd h (by simp)
    | true =>
      rw [hanswers] at h
      have hboth := Bool.and_eq_true_iff.mp h
      have hrest := ih hboth.2
      rw [if_pos rfl] at hrest ⊢
      rw [hrest, hpush node agents hboth.1, List.any_cons]
      by_cases hid : node.nodeId = nodeId
      · subst hid
        have hset : agents.set node.nodeId (update node.nodeId (agents node.nodeId)) node.nodeId =
            update node.nodeId (agents node.nodeId) := if_pos rfl
        rw [hset, hidem, decide_eq_true rfl]
        exact ite_self _
      · have hset : agents.set node.nodeId (update node.nodeId (agents node.nodeId)) nodeId =
            agents nodeId := if_neg fun heq ↦ hid heq.symm
        rw [hset, decide_eq_false hid, Bool.false_or]

section Published

variable {answers : FleetNode → Bool} {pass : Publication} {now : Time} {agents : Agents}

/-- The tables of every agent after a pass whose pushes all succeeded. -/
theorem tables_of_published (h : (pushSnapshot answers pass now agents).1) (nodeId : String) :
    ((pushSnapshot answers pass now agents).2 nodeId).runtimeTable =
      (if pass.snapshot.runtimeNodes.any fun node ↦ node.nodeId = nodeId then
        (accept pass.bootTimestamp pass.revision (pass.snapshot.runtimeEntries nodeId) now
          (agents nodeId).runtimeTable).2
      else (agents nodeId).runtimeTable) ∧
    ((pushSnapshot answers pass now agents).2 nodeId).ingressTable =
      if pass.snapshot.ingressNodes.any fun node ↦ node.nodeId = nodeId then
        (accept pass.bootTimestamp pass.revision ⟨pass.snapshot.rules, pass.snapshot.signingKeys⟩ now
          (agents nodeId).ingressTable).2
      else (agents nodeId).ingressTable := by
  unfold pushSnapshot at h ⊢
  have hboth := Bool.and_eq_true_iff.mp h
  have hruntime := pushEach_of_pushed (pass.runtimeStored now)
    (fun id tables ↦ by
      unfold Publication.runtimeStored
      rw [accept_accept])
    (fun node agents hpushed ↦ Publication.pushRuntimeTable_of_pushed hpushed) hboth.1 nodeId
  have hingress := pushEach_of_pushed (fun _ ↦ pass.ingressStored now)
    (fun id tables ↦ by
      unfold Publication.ingressStored
      rw [accept_accept])
    (fun node agents hpushed ↦ Publication.pushIngressTable_of_pushed hpushed) hboth.2 nodeId
  rw [hingress, hruntime]
  constructor
  · split <;> split <;> rfl
  · split <;> split <;> rfl

end Published

/-! ## Signing keys -/

/-- Some rule of the snapshot leads to the node. -/
def HostTableSnapshot.Serves (snapshot : HostTableSnapshot) (node : FleetNode) : Prop :=
  node ∈ snapshot.runtimeNodes ∧ ∃ rule ∈ snapshot.rules, rule.LeadsTo node

/-- The key's owner is verified with this key: it is found by its kid. -/
def HostTables.Resolves (tables : HostTables) (key : IngressSigningKey) : Prop :=
  ∃ found, tables.findSigningKey key.kid = some found ∧ found.publicJwk = key.publicJwk

/-- Each runtime node that a rule leads to can verify each ingress node registered with a key. -/
def KeysReach (snapshot : HostTableSnapshot) (agents : Agents) : Prop :=
  ∀ node, snapshot.Serves node → ∀ edge ∈ snapshot.ingressNodes, ∀ key,
    edge.signingKey = some key → (agents node.nodeId).Resolves key

/-- The node takes an ingress table of the pass: it has the ingress role too, and no table with this
or a higher revision. -/
def Publication.IsTaken (pass : Publication) (agents : Agents) (node : FleetNode) : Prop :=
  (∃ edge ∈ pass.snapshot.ingressNodes, edge.nodeId = node.nodeId) ∧
    isNewer pass.revision (agents node.nodeId).ingressTable = true

/-- Of the ingress nodes registered with this kid, the first is registered with this key. -/
def FirstWithKid (edges : List FleetNode) (key : IngressSigningKey) : Prop :=
  ∃ edge, (edges.find? fun edge ↦ (edge.signingKey.map IngressSigningKey.kid) = some key.kid) =
      some edge ∧ edge.signingKey.map IngressSigningKey.publicJwk = some key.publicJwk

/-- Before the pass: the keys are on their way to the node, or it already stores them. -/
def Publication.KeysReady (pass : Publication) (agents : Agents) (node : FleetNode)
    (key : IngressSigningKey) : Prop :=
  (pass.IsTaken agents node ∧ FirstWithKid pass.snapshot.ingressNodes key) ∨
    (¬ pass.IsTaken agents node ∧ (agents node.nodeId).Resolves key)

/-- Every served runtime node is ready for the key of every registered ingress node. -/
def Publication.Prepared (pass : Publication) (agents : Agents) : Prop :=
  ∀ node, pass.snapshot.Serves node → ∀ edge ∈ pass.snapshot.ingressNodes, ∀ key,
    edge.signingKey = some key → pass.KeysReady agents node key

theorem resolves_iff {tables : HostTables} :
    tables.Resolves key ↔
      (tables.findSigningKey key.kid).map IngressSigningKey.publicJwk = some key.publicJwk := by
  unfold HostTables.Resolves
  rw [Option.map_eq_some_iff]

theorem firstWithKid_iff {edges : List FleetNode} :
    FirstWithKid edges key ↔
      ((edges.filterMap FleetNode.signingKey).find? fun found ↦ found.kid = key.kid).map
        IngressSigningKey.publicJwk = some key.publicJwk := by
  have hkid : (fun edge : FleetNode ↦ edge.signingKey.any fun found ↦ found.kid = key.kid) =
      fun edge ↦ decide (edge.signingKey.map IngressSigningKey.kid = some key.kid) := by
    funext edge
    cases hkey : edge.signingKey with
    | none => rfl
    | some found => simp
  rw [List.find?_filterMap, hkid]
  constructor
  · intro hfirst
    obtain ⟨edge, hedge, hjwk⟩ := hfirst
    rw [hedge]
    exact hjwk
  · intro hfound
    rw [Option.map_eq_some_iff] at hfound
    obtain ⟨found, hbind, hjwk⟩ := hfound
    obtain ⟨edge, hedge, hkey⟩ := Option.bind_eq_some_iff.mp hbind
    exact ⟨edge, hedge, by rw [hkey, Option.map_some, hjwk]⟩

/-- What a runtime node resolves after a successful pass over a fleet. -/
theorem resolves_published_iff {answers : FleetNode → Bool} {now : Time} {agents : Agents}
    {baseDomain : String} {apps : List MasterApp} {nodes : List FleetNode}
    {hosts : List AppHostRecord} {pass : Publication}
    (hpass : pass = ⟨bootTimestamp, revision, buildSnapshot baseDomain apps nodes hosts⟩)
    (h : (pushSnapshot answers pass now agents).1) (node : FleetNode) (key : IngressSigningKey) :
    ((pushSnapshot answers pass now agents).2 node.nodeId).Resolves key ↔
      pass.KeysReady agents node key := by
  have htable := (tables_of_published h node.nodeId).2
  have hkeys : pass.snapshot.signingKeys =
      pass.snapshot.ingressNodes.filterMap FleetNode.signingKey := by rw [hpass]; rfl
  unfold Publication.KeysReady
  by_cases htaken : pass.IsTaken agents node
  · obtain ⟨⟨edge, hedge, hid⟩, hnewer⟩ := htaken
    have hany : (pass.snapshot.ingressNodes.any fun edge ↦ edge.nodeId = node.nodeId) :=
      List.any_eq_true.mpr ⟨edge, hedge, by simp [hid]⟩
    rw [if_pos hany, accept_of_isNewer hnewer] at htable
    rw [resolves_iff, firstWithKid_iff, HostTables.findSigningKey, htable, ← hkeys]
    constructor
    · intro hfound
      exact .inl ⟨⟨⟨edge, hedge, hid⟩, hnewer⟩, hfound⟩
    · intro hready
      cases hready with
      | inl htaken => exact htaken.2
      | inr hnot => exact absurd ⟨⟨edge, hedge, hid⟩, hnewer⟩ hnot.1
  · have hsame : ((pushSnapshot answers pass now agents).2 node.nodeId).ingressTable =
        (agents node.nodeId).ingressTable := by
      rw [htable]
      split
      next hany =>
        obtain ⟨edge, hedge, hid⟩ := List.any_eq_true.mp hany
        cases hnewer : isNewer pass.revision (agents node.nodeId).ingressTable with
        | true => exact absurd ⟨⟨edge, hedge, by simpa using hid⟩, hnewer⟩ htaken
        | false => exact accept_of_not_isNewer hnewer
      next => rfl
    have hresolves : ((pushSnapshot answers pass now agents).2 node.nodeId).Resolves key ↔
        (agents node.nodeId).Resolves key := by
      rw [resolves_iff, resolves_iff, HostTables.findSigningKey, HostTables.findSigningKey, hsame]
    rw [hresolves]
    constructor
    · intro hstored
      exact .inr ⟨htaken, hstored⟩
    · intro hready
      cases hready with
      | inl htaken' => exact absurd htaken'.1 htaken
      | inr hnot => exact hnot.2

/-- After a pass of which all pushes succeeded, the runtime nodes can verify the ingress nodes
exactly when, for each served runtime node and each registered key, the node takes an ingress table
in which the key comes first under its kid, or takes none and resolved the key before. -/
theorem keysReach_iff (answers : FleetNode → Bool) (bootTimestamp revision : Int) (now : Time)
    (agents : Agents) (baseDomain : String) (apps : List MasterApp) (nodes : List FleetNode)
    (hosts : List AppHostRecord)
    (h : (pushSnapshot answers
      ⟨bootTimestamp, revision, buildSnapshot baseDomain apps nodes hosts⟩ now agents).1 = true) :
    KeysReach (buildSnapshot baseDomain apps nodes hosts) (pushSnapshot answers
        ⟨bootTimestamp, revision, buildSnapshot baseDomain apps nodes hosts⟩ now agents).2 ↔
      Publication.Prepared ⟨bootTimestamp, revision, buildSnapshot baseDomain apps nodes hosts⟩
        agents := by
  constructor
  · intro hreach node hnode edge hedge key hkey
    exact (resolves_published_iff rfl h node key).mp (hreach node hnode edge hedge key hkey)
  · intro hready node hnode edge hedge key hkey
    exact (resolves_published_iff rfl h node key).mpr (hready node hnode edge hedge key hkey)

namespace Sample

def noTables : Agents := fun _ ↦ {}

/-- One ingress node with a key, and one app on a node that is a runtime node only. -/
def separateNodes : HostTableSnapshot :=
  buildSnapshot "apps.test" [app "notes" "notes" .mcpV3 ["n1"]] nodes []

def bothNode : FleetNode :=
  { node "b1" (some .both) (some "10.88.0.3") with
    ingressSigningKid := some "kid-edge", ingressSigningPublicJwk := some jwk }

/-- The same app on a node that has both roles. -/
def sharedNode : HostTableSnapshot :=
  buildSnapshot "apps.test" [app "notes" "notes" .mcpV3 ["b1"]] [bothNode] []

end Sample

theorem keysReach_sharedNode :
    (pushSnapshot (fun _ ↦ true) ⟨0, 1, Sample.sharedNode⟩ 0 Sample.noTables).1 = true ∧
      KeysReach Sample.sharedNode
        (pushSnapshot (fun _ ↦ true) ⟨0, 1, Sample.sharedNode⟩ 0 Sample.noTables).2 := by
  have hpushed : (pushSnapshot (fun _ ↦ true) ⟨0, 1, Sample.sharedNode⟩ 0 Sample.noTables).1 =
      true := by decide +kernel
  apply And.intro hpushed
  apply (keysReach_iff (fun _ ↦ true) 0 1 0 Sample.noTables "apps.test"
    [Sample.app "notes" "notes" .mcpV3 ["b1"]] [Sample.bothNode] [] hpushed).mpr
  intro node hnode edge hedge key hkey
  have hnode_eq : node = Sample.bothNode := List.mem_singleton.mp hnode.1
  have hedge_eq : edge = Sample.bothNode := List.mem_singleton.mp hedge
  subst hnode_eq hedge_eq
  have hkey_eq : key = ⟨"b1", "kid-edge", Sample.jwk⟩ := (Option.some.inj hkey).symm
  subst hkey_eq
  exact .inl ⟨⟨⟨Sample.bothNode, hedge, rfl⟩, rfl⟩, Sample.bothNode, by decide +kernel, rfl⟩

/-- All pushes succeed, and the runtime node of the rule does not know the ingress node's key. -/
theorem keysReach_separateNodes :
    (pushSnapshot (fun _ ↦ true) ⟨0, 1, Sample.separateNodes⟩ 0 Sample.noTables).1 = true ∧
      ¬ KeysReach Sample.separateNodes
        (pushSnapshot (fun _ ↦ true) ⟨0, 1, Sample.separateNodes⟩ 0 Sample.noTables).2 := by
  constructor
  · decide +kernel
  · intro hreach
    have hserves : Sample.separateNodes.Serves (Sample.node "n1" none (some "10.88.0.1")) :=
      ⟨by decide +kernel, ⟨"notes.apps.test", "notes", "acme", ["10.88.0.1"], false⟩,
        by decide +kernel, "10.88.0.1", by decide, rfl⟩
    obtain ⟨found, hfound, -⟩ := hreach _ hserves
      { Sample.node "edge" (some .ingress) none with
        ingressSigningKid := some "kid-edge", ingressSigningPublicJwk := some Sample.jwk }
      (by decide +kernel) ⟨"edge", "kid-edge", Sample.jwk⟩ (by decide +kernel)
    cases hfound

end PrivosCluster.Routing
