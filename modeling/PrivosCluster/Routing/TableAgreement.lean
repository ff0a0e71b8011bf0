import PrivosCluster.Routing.HostTables

/-!
# The two tables of a snapshot agree

Both tables list the apps in the order of the snapshot, and the runtime table takes the hosts of
an app from the rules. So the first entry for a host belongs to the first app, among those with a
replica on the node, that has a rule for the host.
-/

namespace PrivosCluster.Routing

open List Option FleetNode

/-- No two nodes have the same mesh address. -/
def DistinctMeshIps (nodes : List FleetNode) : Prop := (nodes.filterMap FleetNode.meshIp).Nodup

instance (nodes : List FleetNode) : Decidable (DistinctMeshIps nodes) :=
  inferInstanceAs (Decidable (List.Nodup _))

/-- The node is reached at one of the addresses of the rule. -/
def IngressRule.LeadsTo (rule : IngressRule) (node : FleetNode) : Prop :=
  ∃ ip ∈ rule.nodes, node.meshIp = some ip

theorem eq_of_meshIp {nodes : List FleetNode} (hdistinct : DistinctMeshIps nodes)
    {node other : FleetNode} (hnode : node ∈ nodes) (hother : other ∈ nodes) {ip : String}
    (h : node.meshIp = some ip) (h' : other.meshIp = some ip) : node = other := by
  unfold DistinctMeshIps at hdistinct
  induction nodes with
  | nil => cases hnode
  | cons first rest ih =>
    have hfirst : first.meshIp = some ip → ∀ later ∈ rest, later.meshIp ≠ some ip := by
      intro heq later hlater hlater_ip
      rw [filterMap_cons_some heq, nodup_cons] at hdistinct
      exact hdistinct.1 (mem_filterMap.mpr ⟨later, hlater, hlater_ip⟩)
    have hrest : (rest.filterMap FleetNode.meshIp).Nodup :=
      ((sublist_cons_self first rest).filterMap _).nodup hdistinct
    cases mem_cons.mp hnode with
    | inl heq =>
      cases mem_cons.mp hother with
      | inl heq' => rw [heq, heq']
      | inr hmem => exact absurd h' (hfirst (heq ▸ h) other hmem)
    | inr hmem =>
      cases mem_cons.mp hother with
      | inl heq' => exact absurd h (hfirst (heq' ▸ h') node hmem)
      | inr hmem' => exact ih hrest hmem hmem'

theorem eq_of_appId {apps : List MasterApp} (hdistinct : (apps.map MasterApp.appId).Nodup)
    {app other : MasterApp} (happ : app ∈ apps) (hother : other ∈ apps)
    (h : app.appId = other.appId) : app = other :=
  inj_on_of_nodup_map hdistinct happ hother h

theorem truthy_eq_some {text : Option String} {value : String} (h : truthy text = some value) :
    text = some value :=
  (filter_eq_some_iff.mp h).1

theorem findSome?_eq_find? {α β γ : Type} {f : α → Option β} {p : α → Bool} {u : β → γ} {v : α → γ}
    {as : List α} (h : ∀ a ∈ as, (f a).map u = if p a then some (v a) else none) :
    (as.findSome? f).map u = (as.find? p).map v := by
  induction as with
  | nil => rfl
  | cons a as ih =>
    have ha := h a mem_cons_self
    have hrest := ih fun b hb ↦ h b (mem_cons_of_mem a hb)
    cases hp : p a with
    | true =>
      rw [hp] at ha
      have hsome : ∃ b, f a = some b ∧ u b = v a := by simpa using ha
      obtain ⟨b, hb, hu⟩ := hsome
      rw [findSome?_cons_of_isSome (by rw [hb]; rfl), find?_cons_of_pos hp, hb]
      exact congrArg some hu
    | false =>
      rw [hp] at ha
      have hnone : f a = none := by simpa using ha
      rw [findSome?_cons_of_isNone (by rw [hnone]; rfl), find?_cons_of_neg (by simp [hp])]
      exact hrest

section Snapshot

variable {baseDomain : String} {apps : List MasterApp} {nodes : List FleetNode}
  {hosts : List AppHostRecord}

variable {rule : IngressRule}

theorem of_mem_rulesOf {app : MasterApp} (h : rule ∈ rulesOf baseDomain nodes hosts app) :
    rule.appId = app.appId ∧ rule.workspaceId = app.workspaceId ∧ rule.nodes = meshIps nodes app := by
  unfold rulesOf at h
  dsimp only at h
  split at h
  · obtain ⟨host, -, rfl⟩ := List.mem_map.mp h
    exact ⟨rfl, rfl, rfl⟩
  · obtain ⟨label, -, rfl⟩ := List.mem_map.mp h
    exact ⟨rfl, rfl, rfl⟩

/-- An address of an app comes from the first node with the id of one of its replicas. -/
theorem of_mem_meshIps {app : MasterApp} {ip : String} (h : ip ∈ meshIps nodes app) :
    ∃ replica ∈ app.replicas, ∃ node ∈ nodes,
      node.nodeId = replica.nodeId ∧ node.meshIp = some ip := by
  have hmem := mem_eraseDups.mp h
  obtain ⟨replica, hreplica, hfound⟩ := mem_filterMap.mp hmem
  obtain ⟨node, hnode, hip⟩ := bind_eq_some_iff.mp hfound
  have hid : node.nodeId = replica.nodeId := by simpa using find?_some hnode
  exact ⟨replica, hreplica, node, mem_of_find?_eq_some hnode, hid, truthy_eq_some hip⟩

theorem filter_rules {app : MasterApp} (hdistinct : (apps.map MasterApp.appId).Nodup)
    (happ : app ∈ apps) :
    ((apps.flatMap (rulesOf baseDomain nodes hosts)).filter fun rule ↦ rule.appId = app.appId) =
      rulesOf baseDomain nodes hosts app := by
  have hown : ∀ other : MasterApp, other.appId = app.appId →
      (rulesOf baseDomain nodes hosts other).filter (fun rule ↦ rule.appId = app.appId) =
        rulesOf baseDomain nodes hosts other := by
    intro other hid
    apply filter_eq_self.mpr
    intro rule hrule
    simp [(of_mem_rulesOf hrule).1, hid]
  have hforeign : ∀ other : MasterApp, other.appId ≠ app.appId →
      (rulesOf baseDomain nodes hosts other).filter (fun rule ↦ rule.appId = app.appId) = [] := by
    intro other hid
    apply filter_eq_nil_iff.mpr
    intro rule hrule
    simp [(of_mem_rulesOf hrule).1, hid]
  induction apps with
  | nil => cases happ
  | cons first rest ih =>
    rw [map_cons, nodup_cons] at hdistinct
    rw [flatMap_cons, filter_append]
    cases mem_cons.mp happ with
    | inl heq =>
      subst heq
      have hrest : ((rest.flatMap (rulesOf baseDomain nodes hosts)).filter
          fun rule ↦ rule.appId = app.appId) = [] := by
        rw [filter_flatMap, flatMap_eq_nil_iff]
        intro other hother
        apply hforeign
        intro hid
        exact hdistinct.1 (List.mem_map.mpr ⟨other, hother, hid⟩)
      rw [hown app rfl, hrest, append_nil]
    | inr hmem =>
      have hne : first.appId ≠ app.appId := by
        intro hid
        exact hdistinct.1 (List.mem_map.mpr ⟨app, hmem, hid.symm⟩)
      rw [hforeign first hne, ih hdistinct.2 hmem, nil_append]

theorem hostsOf_buildSnapshot {app : MasterApp} (hdistinct : (apps.map MasterApp.appId).Nodup)
    (happ : app ∈ apps) :
    (buildSnapshot baseDomain apps nodes hosts).hostsOf app.appId =
      (rulesOf baseDomain (nodes.filter isRuntime) hosts app).map IngressRule.host :=
  congrArg (List.map IngressRule.host) (filter_rules hdistinct happ)

/-- The app has a replica on the node, and a rule for the host. -/
def routesOn (baseDomain : String) (nodes : List FleetNode) (hosts : List AppHostRecord)
    (nodeId host : String) (app : MasterApp) : Bool :=
  (app.replicas.any fun replica ↦ replica.nodeId = nodeId) &&
    (rulesOf baseDomain (nodes.filter FleetNode.isRuntime) hosts app).any fun rule ↦ rule.host = host

/-- The lookup of the runtime listener, in terms of the apps. -/
theorem findEntry_buildSnapshot (hdistinct : (apps.map MasterApp.appId).Nodup)
    (nodeId host : String) :
    ((buildSnapshot baseDomain apps nodes hosts).findEntry nodeId host).map
        (fun entry ↦ (entry.appId, entry.workspaceId)) =
      (apps.find? (routesOn baseDomain nodes hosts nodeId host)).map
        fun app ↦ (app.appId, app.workspaceId) := by
  unfold HostTableSnapshot.findEntry HostTableSnapshot.runtimeEntries
  rw [find?_flatMap]
  apply findSome?_eq_find?
  intro app happ
  have hcontains : ((buildSnapshot baseDomain apps nodes hosts).hostsOf app.appId).contains host =
      (rulesOf baseDomain (nodes.filter isRuntime) hosts app).any
        fun rule ↦ rule.host = host := by
    rw [hostsOf_buildSnapshot hdistinct happ, Bool.eq_iff_iff]
    simp
  rw [find?_map, find?_filter]
  unfold routesOn
  rw [← hcontains]
  cases hhost : ((buildSnapshot baseDomain apps nodes hosts).hostsOf app.appId).contains host with
  | false =>
    have hnone : app.replicas.find? (fun replica ↦
        decide (decide (replica.nodeId = nodeId) ∧ false)) = none := by simp
    simp only [Function.comp_def, hhost, hnone, Bool.and_false]
    rfl
  | true =>
    simp only [Function.comp_def, hhost, Bool.and_true, and_true, decide_eq_true_eq]
    cases hfound : app.replicas.find? fun replica ↦ decide (replica.nodeId = nodeId) with
    | none =>
      have hany : (app.replicas.any fun replica ↦ decide (replica.nodeId = nodeId)) = false := by
        simpa using hfound
      rw [hany]
      rfl
    | some replica =>
      have hany : (app.replicas.any fun replica ↦ decide (replica.nodeId = nodeId)) :=
        List.any_eq_true.mpr ⟨replica, mem_of_find?_eq_some hfound,
          by simpa using find?_some hfound⟩
      rw [hany]
      rfl

/-- The first rule for a host comes from the first app with a rule for it. -/
theorem findRule_buildSnapshot {host : String}
    (h : (buildSnapshot baseDomain apps nodes hosts).findRule host = some rule) :
    ∃ before app after, apps = before ++ app :: after ∧
      rule ∈ rulesOf baseDomain (nodes.filter isRuntime) hosts app ∧ rule.host = host ∧
      ∀ other ∈ before, ∀ r ∈ rulesOf baseDomain (nodes.filter isRuntime) hosts other,
        r.host ≠ host := by
  unfold HostTableSnapshot.findRule buildSnapshot at h
  rw [find?_flatMap, findSome?_eq_some_iff] at h
  obtain ⟨before, app, after, happs, hfound, hbefore⟩ := h
  have hhost : rule.host = host := by simpa using find?_some hfound
  apply Exists.intro before
  apply Exists.intro app
  apply Exists.intro after
  apply And.intro happs
  apply And.intro (mem_of_find?_eq_some hfound)
  apply And.intro hhost
  intro other hother r hr
  simpa using find?_eq_none.mp (hbefore other hother) r hr

/-- A node that a rule of an app leads to holds a replica of the app. -/
theorem hasReplica_of_leadsTo {app : MasterApp} {node : FleetNode} (hmesh : DistinctMeshIps nodes)
    (hrule : rule ∈ rulesOf baseDomain (nodes.filter isRuntime) hosts app)
    (hnode : node ∈ nodes) (hleads : rule.LeadsTo node) :
    (app.replicas.any fun replica ↦ replica.nodeId = node.nodeId) := by
  obtain ⟨ip, hip, hnode_ip⟩ := hleads
  rw [(of_mem_rulesOf hrule).2.2] at hip
  obtain ⟨replica, hreplica, other, hother, hid, hother_ip⟩ := of_mem_meshIps hip
  have hsame : node = other :=
    eq_of_meshIp hmesh hnode (mem_of_mem_filter hother) hnode_ip hother_ip
  apply List.any_eq_true.mpr
  exact ⟨replica, hreplica, by simp [hsame, hid]⟩

/-- The app of the first rule for a host is the first on each node of the rule. -/
theorem find?_routesOn {host : String} {node : FleetNode} (hmesh : DistinctMeshIps nodes)
    (hrule : (buildSnapshot baseDomain apps nodes hosts).findRule host = some rule)
    (hnode : node ∈ nodes) (hleads : rule.LeadsTo node) :
    ∃ app ∈ apps, app.appId = rule.appId ∧ app.workspaceId = rule.workspaceId ∧
      apps.find? (routesOn baseDomain nodes hosts node.nodeId host) = some app := by
  obtain ⟨before, app, after, rfl, hmem, hhost, hbefore⟩ := findRule_buildSnapshot hrule
  have hroutes : routesOn baseDomain nodes hosts node.nodeId host app := by
    unfold routesOn
    rw [hasReplica_of_leadsTo hmesh hmem hnode hleads, Bool.true_and, List.any_eq_true]
    exact ⟨rule, hmem, by simp [hhost]⟩
  have hfirst : before.find? (routesOn baseDomain nodes hosts node.nodeId host) = none := by
    apply find?_eq_none.mpr
    intro other hother hany
    have hrules := List.any_eq_true.mp (Bool.and_eq_true_iff.mp hany).2
    obtain ⟨r, hr, heq⟩ := hrules
    exact hbefore other hother r hr (by simpa using heq)
  apply Exists.intro app
  apply And.intro (mem_append_right before mem_cons_self)
  apply And.intro (of_mem_rulesOf hmem).1.symm
  apply And.intro (of_mem_rulesOf hmem).2.1.symm
  rw [find?_append, hfirst, none_or, find?_cons_of_pos hroutes]

/-- A request for the host reaches the app through both tables. -/
def Routed (snapshot : HostTableSnapshot) (host appId : String) : Prop :=
  ∃ rule, snapshot.findRule host = some rule ∧
    ∃ node ∈ snapshot.runtimeNodes, rule.LeadsTo node ∧
      ∃ entry, snapshot.findEntry node.nodeId host = some entry ∧ entry.appId = appId

/-- On each node that the first rule for a host leads to, the first entry with the host is of the
rule's app. -/
theorem findEntry_of_findRule {host : String} {node : FleetNode}
    (hdistinct : (apps.map MasterApp.appId).Nodup) (hmesh : DistinctMeshIps nodes)
    (hrule : (buildSnapshot baseDomain apps nodes hosts).findRule host = some rule)
    (hnode : node ∈ (buildSnapshot baseDomain apps nodes hosts).runtimeNodes)
    (hleads : rule.LeadsTo node) :
    ∃ entry, (buildSnapshot baseDomain apps nodes hosts).findEntry node.nodeId host = some entry ∧
      entry.appId = rule.appId ∧ entry.workspaceId = rule.workspaceId := by
  have hmem : node ∈ nodes := mem_of_mem_filter hnode
  obtain ⟨app, -, hid, hworkspace, hfound⟩ := find?_routesOn hmesh hrule hmem hleads
  have hlookup : ((buildSnapshot baseDomain apps nodes hosts).findEntry node.nodeId host).map
      (fun entry ↦ (entry.appId, entry.workspaceId)) = some (app.appId, app.workspaceId) := by
    rw [findEntry_buildSnapshot hdistinct, hfound, map_some]
  obtain ⟨entry, hentry, hpair⟩ := map_eq_some_iff.mp hlookup
  have hpair := Prod.mk.inj hpair
  exact ⟨entry, hentry, hpair.1.trans hid, hpair.2.trans hworkspace⟩

/-- The tables of a snapshot route a host to one app: the first entry with it is of the app of the
first rule for it on every node of the rule. -/
theorem tables_agree (hdistinct : (apps.map MasterApp.appId).Nodup) (hmesh : DistinctMeshIps nodes)
    (host : String) :
    (∀ rule, (buildSnapshot baseDomain apps nodes hosts).findRule host = some rule →
      ∀ node ∈ (buildSnapshot baseDomain apps nodes hosts).runtimeNodes, rule.LeadsTo node →
        ∃ entry, (buildSnapshot baseDomain apps nodes hosts).findEntry node.nodeId host = some entry ∧
          entry.appId = rule.appId) ∧
    ∀ appId other, Routed (buildSnapshot baseDomain apps nodes hosts) host appId →
      Routed (buildSnapshot baseDomain apps nodes hosts) host other → appId = other := by
  have hagree : ∀ appId, Routed (buildSnapshot baseDomain apps nodes hosts) host appId →
      (((buildSnapshot baseDomain apps nodes hosts).findRule host).map IngressRule.appId) =
        some appId := by
    intro appId hrouted
    obtain ⟨rule, hrule, node, hnode, hleads, entry, hentry, hid⟩ := hrouted
    obtain ⟨first, hfirst, hfirst_id, -⟩ :=
      findEntry_of_findRule hdistinct hmesh hrule hnode hleads
    rw [hentry] at hfirst
    rw [hrule, map_some, ← hfirst_id, ← hid, Option.some.inj hfirst]
  constructor
  · intro rule hrule node hnode hleads
    obtain ⟨entry, hentry, hid, -⟩ := findEntry_of_findRule hdistinct hmesh hrule hnode hleads
    exact ⟨entry, hentry, hid⟩
  · intro appId other h h'
    exact Option.some.inj ((hagree appId h).symm.trans (hagree other h'))

end Snapshot

namespace Sample

def jwk : JsonWebKey := ⟨"OKP", "Ed25519", "key", "", none⟩

def node (nodeId : String) (role : Option NodeRole) (meshIp : Option String) : FleetNode where
  nodeId := nodeId
  failureDomain := nodeId
  capacity := ⟨4096, 4, 100000000⟩
  status := .active
  updatedAt := 0
  role := role
  meshIp := meshIp

/-- An ingress node with a signing key and two runtime nodes. -/
def nodes : List FleetNode :=
  [{ node "edge" (some .ingress) none with
      ingressSigningKid := some "kid-edge", ingressSigningPublicJwk := some jwk },
    node "n1" none (some "10.88.0.1"), node "n2" (some .runtime) (some "10.88.0.2")]

def app (appId subdomain : String) (kind : AppKind) (nodeIds : List String) : MasterApp where
  appId := appId
  workspaceId := "acme"
  listingId := "listing"
  versionDigest := "sha256:version"
  image := "registry/app"
  imageDigest := "sha256:image"
  resources := ⟨256, 1, 64⟩
  port := 3001
  envVars := []
  volumes := []
  storageBytes := 0
  availabilityTier := .single
  stateless := true
  subdomain := some subdomain
  replicas := nodeIds.map fun nodeId ↦
    { replicaId := "r-" ++ nodeId, nodeId, containerId := appId ++ "-" ++ nodeId, state := "running" }
  state := .running
  createdAt := 0
  updatedAt := 0
  kind := some kind

def host (hostname appId : String) : AppHostRecord where
  hostname := hostname
  workspaceId := "acme"
  appId := appId
  listingId := "listing"
  kind := .tenant
  primary := true
  state := .active
  createdAt := 0
  updatedAt := 0

/-- Two apps with a rule for the same host: the second by a row, the first by its own label. -/
def sharedHost : HostTableSnapshot :=
  buildSnapshot "apps.test" [app "notes" "notes" .mcpV3 ["n1", "n2"], app "shop" "shop" .mcpV3 ["n2"]]
    nodes [host "notes.apps.test" "shop"]

end Sample

theorem tables_agree_sharedHost :
    ∃ rule entry, Sample.sharedHost.findRule "notes.apps.test" = some rule ∧ rule.LeadsTo
      (Sample.node "n2" (some .runtime) (some "10.88.0.2")) ∧
      Sample.sharedHost.findEntry "n2" "notes.apps.test" = some entry ∧ entry.appId = "notes" := by
  have hagree := (tables_agree (by decide) (by decide) "notes.apps.test" :
    (∀ rule, Sample.sharedHost.findRule "notes.apps.test" = some rule →
      ∀ node ∈ Sample.sharedHost.runtimeNodes, rule.LeadsTo node →
        ∃ entry, Sample.sharedHost.findEntry node.nodeId "notes.apps.test" = some entry ∧
          entry.appId = rule.appId) ∧ _).1
  have hleads : IngressRule.LeadsTo
      ⟨"notes.apps.test", "notes", "acme", ["10.88.0.1", "10.88.0.2"], false⟩
      (Sample.node "n2" (some .runtime) (some "10.88.0.2")) := ⟨"10.88.0.2", by decide, rfl⟩
  have hrule : Sample.sharedHost.findRule "notes.apps.test" =
      some ⟨"notes.apps.test", "notes", "acme", ["10.88.0.1", "10.88.0.2"], false⟩ := by
    decide +kernel
  obtain ⟨entry, hentry, hid⟩ := hagree _ hrule _ (by decide +kernel) hleads
  exact ⟨_, entry, hrule, hleads, hentry, hid⟩

end PrivosCluster.Routing
