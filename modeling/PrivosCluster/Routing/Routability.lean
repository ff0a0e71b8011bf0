import PrivosCluster.Routing.Listeners
import PrivosCluster.Routing.Publication

/-!
# Requests through the two listeners

The ingress listener looks a host up in its normal form and forwards the header as it came; the
runtime listener looks the header up as it comes. It then asks Docker for a container of the app
with the labels of a v3 deployment.
-/

namespace PrivosCluster.Routing

open List Option

variable {nodeId appId host : String} {tables : HostTables} {best : List DockerContainer}
  {e : DockerContainer}

theorem findRuntimeAppByHost_of_holds {snapshot : HostTableSnapshot}
    (h : HoldsRuntime snapshot nodeId tables) (host : String) :
    tables.findRuntimeAppByHost host = snapshot.findEntry nodeId host := by
  obtain ⟨stored, hstored, htable⟩ := map_eq_some_iff.mp h
  unfold HostTables.findRuntimeAppByHost HostTableSnapshot.findEntry
  rw [hstored, ← htable]
  rfl

theorem findIngressRuleByHost_of_holds {snapshot : HostTableSnapshot}
    (h : HoldsIngress snapshot tables) (host : String) :
    tables.findIngressRuleByHost host = snapshot.findRule host := by
  obtain ⟨stored, hstored, htable⟩ := map_eq_some_iff.mp h
  unfold HostTables.findIngressRuleByHost HostTableSnapshot.findRule
  rw [hstored]
  simp [htable]

/-- The agents of the fleet store the tables of the snapshot. -/
structure Pushed (snapshot : HostTableSnapshot) (agents : Agents) : Prop where
  runtime : ∀ node ∈ snapshot.runtimeNodes, HoldsRuntime snapshot node.nodeId (agents node.nodeId)
  ingress : ∀ node ∈ snapshot.ingressNodes, HoldsIngress snapshot (agents node.nodeId)

/-- So they do after a successful pass with a revision that none of them stored before. -/
theorem pushed_of_published {answers : FleetNode → Bool} {pass : Publication} {now : Time}
    {agents : Agents} (h : (pushSnapshot answers pass now agents).1)
    (hruntime : ∀ nodeId, isNewer pass.revision (agents nodeId).runtimeTable)
    (hingress : ∀ nodeId, isNewer pass.revision (agents nodeId).ingressTable) :
    Pushed pass.snapshot (pushSnapshot answers pass now agents).2 where
  runtime node hnode := by
    have htable := (tables_of_published h node.nodeId).1
    have hany : (pass.snapshot.runtimeNodes.any fun other ↦ other.nodeId = node.nodeId) :=
      List.any_eq_true.mpr ⟨node, hnode, by simp⟩
    rw [if_pos hany, accept_of_isNewer (hruntime node.nodeId)] at htable
    unfold HoldsRuntime
    rw [htable]
    rfl
  ingress node hnode := by
    have htable := (tables_of_published h node.nodeId).2
    have hany : (pass.snapshot.ingressNodes.any fun other ↦ other.nodeId = node.nodeId) :=
      List.any_eq_true.mpr ⟨node, hnode, by simp⟩
    rw [if_pos hany, accept_of_isNewer (hingress node.nodeId)] at htable
    unfold HoldsIngress
    rw [htable]
    rfl

section Snapshot

variable {baseDomain : String} {apps : List MasterApp} {nodes : List FleetNode}
  {hosts : List AppHostRecord}

/-- Of the apps with a replica on the node and a rule for the host, this one comes first. -/
def IsFirstOn (baseDomain : String) (apps : List MasterApp) (nodes : List FleetNode)
    (hosts : List AppHostRecord) (nodeId host : String) (app : MasterApp) : Prop :=
  apps.find? (routesOn baseDomain nodes hosts nodeId host) = some app

/-- The app of the rule has a rule spelled exactly like this, and none of the apps before it that
have a replica on the node has one. -/
def SpelledOn (baseDomain : String) (apps : List MasterApp) (nodes : List FleetNode)
    (hosts : List AppHostRecord) (nodeId host appId : String) : Prop :=
  ∃ before app after, apps = before ++ app :: after ∧ app.appId = appId ∧
    (∃ rule ∈ rulesOf baseDomain (nodes.filter FleetNode.isRuntime) hosts app, rule.host = host) ∧
    ∀ other ∈ before, routesOn baseDomain nodes hosts nodeId host other = false

theorem findEntry_appId_iff (hdistinct : (apps.map MasterApp.appId).Nodup)
    (nodeId host appId : String) :
    (∃ entry, (buildSnapshot baseDomain apps nodes hosts).findEntry nodeId host = some entry ∧
      entry.appId = appId) ↔
      ∃ app, IsFirstOn baseDomain apps nodes hosts nodeId host app ∧ app.appId = appId := by
  have hlookup : ((buildSnapshot baseDomain apps nodes hosts).findEntry nodeId host).map
      (fun entry ↦ (entry.appId, entry.workspaceId)) =
      (apps.find? (routesOn baseDomain nodes hosts nodeId host)).map
        fun app ↦ (app.appId, app.workspaceId) := findEntry_buildSnapshot hdistinct nodeId host
  constructor
  · intro hentry
    obtain ⟨entry, hentry, hid⟩ := hentry
    rw [hentry] at hlookup
    obtain ⟨app, happ, hpair⟩ := map_eq_some_iff.mp hlookup.symm
    exact ⟨app, happ, (Prod.mk.inj hpair).1.trans hid⟩
  · intro happ
    obtain ⟨app, happ, hid⟩ := happ
    rw [happ] at hlookup
    obtain ⟨entry, hentry, hpair⟩ := map_eq_some_iff.mp hlookup
    exact ⟨entry, hentry, (Prod.mk.inj hpair).1.trans hid⟩

/-- A request that the ingress listener forwards to a node of the rule it found is resolved there to
the rule's app exactly when its `Host` header is already in normal form, or the app itself is the
first on the node with a rule spelled like the header. -/
theorem forwarded_resolves_iff (hdistinct : (apps.map MasterApp.appId).Nodup)
    (hmesh : DistinctMeshIps nodes) (platform : Platform) (ingress : IngressListener)
    (runtime : RuntimeListener) (node : FleetNode)
    (hingress : HoldsIngress (buildSnapshot baseDomain apps nodes hosts) ingress.tables)
    (hruntime : HoldsRuntime (buildSnapshot baseDomain apps nodes hosts) node.nodeId runtime.tables)
    (req : HttpRequest) (rawHost clientIp : String) (stamp : String × Rat) (meshIp : String)
    (hhost : req.host = some rawHost) (rule : IngressRule)
    (hrule : ingress.findRule req.host = some rule)
    (hnode : node ∈ (buildSnapshot baseDomain apps nodes hosts).runtimeNodes)
    (hip : meshIp ∈ rule.nodes) (hnode_ip : node.meshIp = some meshIp) :
    (∃ entry, runtime.tables.findRuntimeAppByHost
        ((forwardedRequest ingress platform req clientIp stamp meshIp).host.getD "") = some entry ∧
      entry.appId = rule.appId) ↔
      hostOnly (some rawHost) = rawHost ∨
        SpelledOn baseDomain apps nodes hosts node.nodeId rawHost rule.appId := by
  have hleads : rule.LeadsTo node := ⟨meshIp, hip, hnode_ip⟩
  have hforwarded : (forwardedRequest ingress platform req clientIp stamp meshIp).host.getD "" =
      rawHost := by
    unfold forwardedRequest
    rw [hhost]
    rfl
  have hfound : (buildSnapshot baseDomain apps nodes hosts).findRule (hostOnly (some rawHost)) =
      some rule := by
    unfold IngressListener.findRule at hrule
    rw [hhost] at hrule
    split at hrule
    · cases hrule
    · rw [findIngressRuleByHost_of_holds hingress] at hrule
      exact hrule
  rw [hforwarded, findRuntimeAppByHost_of_holds hruntime, findEntry_appId_iff hdistinct]
  constructor
  · intro hfirst
    obtain ⟨app, hfirst, hid⟩ := hfirst
    obtain ⟨hroutes, before, after, happs, hbefore⟩ := find?_eq_some_iff_append.mp hfirst
    obtain ⟨r, hr, hr_host⟩ := List.any_eq_true.mp (Bool.and_eq_true_iff.mp hroutes).2
    apply Or.inr
    exact ⟨before, app, after, happs, hid, ⟨r, hr, by simpa using hr_host⟩,
      by simpa using hbefore⟩
  · intro hspelled
    cases hspelled with
    | inl hnormal =>
      rw [hnormal] at hfound
      have hentry := findEntry_of_findRule hdistinct hmesh hfound hnode hleads
      obtain ⟨entry, hentry, hid, -⟩ := hentry
      exact (findEntry_appId_iff hdistinct node.nodeId rawHost rule.appId).mp ⟨entry, hentry, hid⟩
    | inr hspelled =>
      obtain ⟨before, app, after, happs, hid, ⟨r, hr, hr_host⟩, hbefore⟩ := hspelled
      obtain ⟨before', owner, after', happs', howner, -, -⟩ := findRule_buildSnapshot hfound
      have happ_mem : app ∈ apps := by rw [happs]; simp
      have howner_mem : owner ∈ apps := by rw [happs']; simp
      have hsame : owner = app := by
        apply eq_of_appId hdistinct howner_mem happ_mem
        rw [hid, (of_mem_rulesOf howner).1]
      subst hsame
      have hreplica := hasReplica_of_leadsTo hmesh howner (mem_of_mem_filter hnode) hleads
      have hroutes : routesOn baseDomain nodes hosts node.nodeId rawHost owner := by
        unfold routesOn
        rw [hreplica, Bool.true_and, List.any_eq_true]
        exact ⟨r, hr, by simp [hr_host]⟩
      apply Exists.intro owner
      apply And.intro _ hid
      exact find?_eq_some_iff_append.mpr
        ⟨hroutes, before, after, happs, fun other hother ↦ by simp [hbefore other hother]⟩

end Snapshot

/-! ## To the container -/

/-- The container of a replica of the app, running on its network under the labels of its deploy. -/
structure IsContainerOf (app : MasterApp) (replica : AppReplica) (entry : DockerContainer) : Prop where
  labels : ∀ name ∈ ["privos.managed", "privos.id", "privos.app-id", "privos.workspace",
    "privos.port", "privos.mcp.schema"], entry.label name = (deployedLabels app replica).lookup name
  id : entry.id = replica.containerId
  running : entry.state = .running
  address : ∃ ip, getContainerIp entry = some ip

/-- The containers of the app run on the node: there is one for each replica, and what carries the
app's labels or the id of a replica is one of them. -/
structure RunsOn (app : MasterApp) (nodeId : String) (containers : List DockerContainer) : Prop where
  present : ∀ replica ∈ app.replicas, replica.nodeId = nodeId →
    ∃ entry ∈ containers, IsContainerOf app replica entry
  own : ∀ entry ∈ containers,
    (entry.label "privos.app-id" = some app.appId ∧
        entry.label "privos.workspace" = some app.workspaceId) ∨
      (∃ replica ∈ app.replicas, entry.id = replica.containerId) →
    ∃ replica ∈ app.replicas, replica.nodeId = nodeId ∧ IsContainerOf app replica entry

/-- The request carries a fresh signature for this node by an ingress node of the snapshot. -/
structure CorrectlySigned (platform : Platform) (now : Time) (snapshot : HostTableSnapshot)
    (listener : RuntimeListener) (req : HttpRequest) (parsed : ParsedSignatureHeaders) : Prop where
  read : readSignatureHeaders platform req = some parsed
  target : parsed.targetNodeId = listener.selfMeshIp
  fresh : |(now : Rat) - parsed.ts| ≤ signatureTsSkewMs
  unseen : (listener.replayCache.checkAndRemember parsed.nonce now).1 = true
  signed : ∃ edge ∈ snapshot.ingressNodes, ∃ key, edge.signingKey = some key ∧
    key.kid = parsed.kid ∧
    verifyRequest platform (parsed.fields req) parsed.signature key.publicJwk = true

/-- The node's tables know the signer: under the kid they have a key that verifies the request. -/
def KnowsSigner (platform : Platform) (tables : HostTables) (req : HttpRequest)
    (parsed : ParsedSignatureHeaders) : Prop :=
  ∃ found, tables.findSigningKey parsed.kid = some found ∧
    verifyRequest platform (parsed.fields req) parsed.signature found.publicJwk = true

/-- The reply hands the request to a running container of the app on this node. -/
def ForwardedTo (containers : List DockerContainer) (app : MasterApp) (nodeId : String)
    (reply : Reply) : Prop :=
  ∃ replica ∈ app.replicas, replica.nodeId = nodeId ∧
    ∃ entry ∈ containers, IsContainerOf app replica entry ∧
      ∃ url request, reply = .forwarded entry.id url request

variable {entry : DockerContainer}

theorem mem_keepActive (h : e ∈ keepActive best entry) : e ∈ best ∨ e = entry := by
  unfold keepActive at h
  split at h
  · obtain ⟨other, hother, heq⟩ := List.mem_map.mp h
    split at heq
    · exact .inr heq.symm
    · exact .inl (heq ▸ hother)
  · cases mem_append.mp h with
    | inl hbest => exact .inl hbest
    | inr hentry => exact .inr (mem_singleton.mp hentry)

theorem keepActive_ne_nil (best : List DockerContainer) (entry : DockerContainer) :
    keepActive best entry ≠ [] := by
  unfold keepActive
  split
  next hany =>
    obtain ⟨other, hother, -⟩ := List.any_eq_true.mp hany
    intro hnil
    rw [map_eq_nil_iff] at hnil
    rw [hnil] at hother
    cases hother
  · simp

variable {entries : List DockerContainer}

theorem mem_foldl_keepActive (h : e ∈ entries.foldl keepActive best) : e ∈ best ∨ e ∈ entries := by
  induction entries generalizing best with
  | nil => exact .inl h
  | cons entry rest ih =>
    cases ih h with
    | inl hbest =>
      cases mem_keepActive hbest with
      | inl hold => exact .inl hold
      | inr hnew => exact .inr (hnew ▸ mem_cons_self)
    | inr hrest => exact .inr (mem_cons_of_mem entry hrest)

theorem pickActivePerId_ne_nil (h : entries ≠ []) : pickActivePerId entries ≠ [] := by
  have hfold : ∀ (rest best : List DockerContainer), best ≠ [] → rest.foldl keepActive best ≠ [] := by
    intro rest
    induction rest with
    | nil => exact fun _ hbest ↦ hbest
    | cons entry rest ih => exact fun best _ ↦ ih _ (keepActive_ne_nil best entry)
  cases entries with
  | nil => exact absurd rfl h
  | cons entry rest => exact hfold rest _ (keepActive_ne_nil [] entry)

variable {workspaceId : String}

theorem of_findByAppId (h : findByAppId entries appId workspaceId = some entry) :
    entry ∈ entries ∧ hasAppLabels appId workspaceId entry := by
  have hmem : entry ∈ pickActivePerId (entries.filter (hasAppLabels appId workspaceId)) :=
    mem_of_head? h
  cases mem_foldl_keepActive hmem with
  | inl hnil => cases hnil
  | inr hfilter => exact mem_filter.mp hfilter

theorem findByAppId_isSome (hmem : entry ∈ entries)
    (hlabels : hasAppLabels appId workspaceId entry) :
    ∃ found, findByAppId entries appId workspaceId = some found := by
  have hne : entries.filter (hasAppLabels appId workspaceId) ≠ [] := by
    intro hnil
    have hin := mem_filter.mpr ⟨hmem, hlabels⟩
    rw [hnil] at hin
    cases hin
  exact isSome_iff_exists.mp (isSome_head?.mpr (pickActivePerId_ne_nil hne))

theorem hasAppLabels_iff :
    hasAppLabels appId workspaceId entry ↔
      entry.label "privos.managed" = some "true" ∧ entry.label "privos.app-id" = some appId ∧
        entry.label "privos.workspace" = some workspaceId ∧
        entry.label "privos.mcp.schema" = some "3" := by
  simp [hasAppLabels, and_assoc]

namespace IsContainerOf

variable {app : MasterApp} {replica : AppReplica} {entry : DockerContainer}

theorem schema_iff (h : IsContainerOf app replica entry) :
    entry.label "privos.mcp.schema" = some "3" ↔ app.kind = some .mcpV3 := by
  rw [h.labels "privos.mcp.schema" (by simp)]
  cases hkind : app.kind with
  | none => simp [deployedLabels, hkind, lookup_cons]
  | some kind => cases kind <;> simp [deployedLabels, hkind, lookup_cons]

theorem label_appId (h : IsContainerOf app replica entry) :
    entry.label "privos.app-id" = some app.appId :=
  h.labels "privos.app-id" (by simp)

theorem hasAppLabels (h : IsContainerOf app replica entry) (hkind : app.kind = some .mcpV3) :
    Routing.hasAppLabels app.appId app.workspaceId entry :=
  hasAppLabels_iff.mpr ⟨h.labels "privos.managed" (by simp), h.label_appId,
    h.labels "privos.workspace" (by simp), h.schema_iff.mpr hkind⟩

end IsContainerOf

section Listener

variable {platform : Platform} {now : Time} {snapshot : HostTableSnapshot}
  {listener : RuntimeListener} {req : HttpRequest} {parsed : ParsedSignatureHeaders}

theorem authenticate_ok_iff (h : CorrectlySigned platform now snapshot listener req parsed) :
    (∃ clientIp, (listener.authenticate platform now req).1 = .ok clientIp) ↔
      KnowsSigner platform listener.tables req parsed := by
  have htarget : ¬ parsed.targetNodeId ≠ listener.selfMeshIp := fun hne ↦ hne h.target
  have hfresh : ¬ signatureTsSkewMs < |(now : Rat) - parsed.ts| := not_lt.mpr h.fresh
  unfold RuntimeListener.authenticate KnowsSigner
  rw [h.read]
  dsimp only
  rw [if_neg htarget, if_neg hfresh]
  cases hkey : listener.tables.findSigningKey parsed.kid with
  | none => simp
  | some found =>
    cases hverify : verifyRequest platform (parsed.fields req) parsed.signature found.publicJwk with
    | false => simp [hverify]
    | true => simp [h.unseen, hverify]

/-- The only prefix routed is the root, which every path has. -/
theorem matchLongestPrefix_root (pathname : String) :
    matchLongestPrefix pathname [("/", ())] = some () := rfl

theorem resolveTarget_ok_iff {pathname : String} {target : Target} :
    listener.resolveTarget host pathname = .ok target ↔
      ∃ app, listener.tables.findRuntimeAppByHost host = some app ∧
        ∃ entry, findByAppId listener.containers app.appId app.workspaceId = some entry ∧
          entry.state = .running ∧ ∃ ip, getContainerIp entry = some ip ∧
            target = ⟨"http://" ++ ip ++ ":" ++ toString entry.port, entry.id⟩ := by
  unfold RuntimeListener.resolveTarget
  rw [matchLongestPrefix_root]
  cases happ : listener.tables.findRuntimeAppByHost host with
  | none => simp
  | some app =>
    cases hentry : findByAppId listener.containers app.appId app.workspaceId with
    | none => simp [hentry]
    | some entry =>
      by_cases hrunning : entry.state = .running
      · cases hip : getContainerIp entry with
        | none => simp [hentry, hrunning, hip]
        | some ip => simp [hentry, hrunning, hip, eq_comm]
      · simp [hentry, hrunning]

theorem handleRequest_forwarded_iff {canonical : CanonicalPath} {containerId : String}
    (hpath : canonicalizePath platform (req.url.getD "/") = some canonical)
    (hpublic : isBlockedMcpPath canonical.pathname = false) :
    (∃ url request, (listener.handleRequest platform now req).1 = .forwarded containerId url request) ↔
      (∃ clientIp, (listener.authenticate platform now req).1 = .ok clientIp) ∧
        ∃ target, listener.resolveTarget (req.host.getD "") canonical.pathname = .ok target ∧
          target.containerId = containerId := by
  unfold RuntimeListener.handleRequest
  cases hauth : listener.authenticate platform now req with
  | mk authenticated cache =>
    cases authenticated with
    | error reply => simp
    | ok clientIp =>
      simp only [hpath, hpublic]
      cases hresolve : listener.resolveTarget (req.host.getD "") canonical.pathname with
      | error e => cases e <;> simp
      | ok target => simp [eq_comm]

end Listener

section Fleet

variable {baseDomain : String} {apps : List MasterApp} {nodes : List FleetNode}
  {hosts : List AppHostRecord}

/-- The app that is first on the node is the one whose entry the lookup finds. -/
theorem findEntry_of_isFirstOn (hdistinct : (apps.map MasterApp.appId).Nodup) {app : MasterApp}
    (h : IsFirstOn baseDomain apps nodes hosts nodeId host app) :
    ∃ entry, (buildSnapshot baseDomain apps nodes hosts).findEntry nodeId host = some entry ∧
      entry.appId = app.appId ∧ entry.workspaceId = app.workspaceId := by
  have hlookup : ((buildSnapshot baseDomain apps nodes hosts).findEntry nodeId host).map
      (fun entry ↦ (entry.appId, entry.workspaceId)) = some (app.appId, app.workspaceId) := by
    rw [findEntry_buildSnapshot hdistinct, h, map_some]
  obtain ⟨entry, hentry, hpair⟩ := map_eq_some_iff.mp hlookup
  exact ⟨entry, hentry, Prod.mk.inj hpair⟩

/-- A signed request for a host of an app, sent to a node that runs the app, is handed to one of its
containers exactly when the app is an mcp-v3 app, the node knows the signer, and the app is the
first there with a rule for the host. -/
theorem request_forwarded_iff (hdistinct : (apps.map MasterApp.appId).Nodup)
    (platform : Platform) (now : Time) (agents : Agents)
    (hpushed : Pushed (buildSnapshot baseDomain apps nodes hosts) agents)
    (app : MasterApp) (happ : app ∈ apps) (host : String) (node : FleetNode)
    (hnode : node ∈ (buildSnapshot baseDomain apps nodes hosts).runtimeNodes)
    (listener : RuntimeListener) (htables : listener.tables = agents node.nodeId)
    (hruns : RunsOn app node.nodeId listener.containers)
    (req : HttpRequest) (parsed : ParsedSignatureHeaders)
    (hsigned : CorrectlySigned platform now (buildSnapshot baseDomain apps nodes hosts) listener req
      parsed)
    (hhost : req.host = some host) (canonical : CanonicalPath)
    (hpath : canonicalizePath platform (req.url.getD "/") = some canonical)
    (hpublic : isBlockedMcpPath canonical.pathname = false) :
    ForwardedTo listener.containers app node.nodeId (listener.handleRequest platform now req).1 ↔
      app.kind = some .mcpV3 ∧ KnowsSigner platform listener.tables req parsed ∧
        IsFirstOn baseDomain apps nodes hosts node.nodeId host app := by
  have hholds := hpushed.runtime node hnode
  rw [← htables] at hholds
  have hlookup : listener.tables.findRuntimeAppByHost (req.host.getD "") =
      (buildSnapshot baseDomain apps nodes hosts).findEntry node.nodeId host := by
    rw [hhost]
    exact findRuntimeAppByHost_of_holds hholds host
  constructor
  · intro hforwarded
    obtain ⟨replica, hreplica, -, entry, -, hcontainer, hreply⟩ := hforwarded
    have hboth := (handleRequest_forwarded_iff hpath hpublic).mp hreply
    obtain ⟨hok, target, htarget, hid⟩ := hboth
    obtain ⟨found, hfound, picked, hpicked, -, ip, -, rfl⟩ := resolveTarget_ok_iff.mp htarget
    obtain ⟨hmem, hlabels⟩ := of_findByAppId hpicked
    have hpicked_id : picked.id = replica.containerId := hid.trans hcontainer.id
    obtain ⟨replica', -, -, hown⟩ := hruns.own picked hmem (.inr ⟨replica, hreplica, hpicked_id⟩)
    have hlabels := hasAppLabels_iff.mp hlabels
    have happ_id : app.appId = found.appId :=
      Option.some.inj (hown.label_appId.symm.trans hlabels.2.1)
    apply And.intro (hown.schema_iff.mp hlabels.2.2.2)
    apply And.intro ((authenticate_ok_iff hsigned).mp hok)
    rw [hlookup] at hfound
    obtain ⟨first, hfirst, hfirst_id⟩ :=
      (findEntry_appId_iff hdistinct node.nodeId host app.appId).mp
        ⟨found, hfound, happ_id.symm⟩
    have hsame : first = app :=
      eq_of_appId hdistinct (mem_of_find?_eq_some hfirst) happ hfirst_id
    rw [← hsame]
    exact hfirst
  · intro hconditions
    obtain ⟨hkind, hknows, hfirst⟩ := hconditions
    have hroutes := find?_some hfirst
    obtain ⟨replica, hreplica, hon⟩ := List.any_eq_true.mp (Bool.and_eq_true_iff.mp hroutes).1
    obtain ⟨entry, hentry, hcontainer⟩ :=
      hruns.present replica hreplica (by simpa using hon)
    obtain ⟨picked, hpicked⟩ := findByAppId_isSome hentry (hcontainer.hasAppLabels hkind)
    obtain ⟨hmem, hlabels⟩ := of_findByAppId hpicked
    have hlabels := hasAppLabels_iff.mp hlabels
    obtain ⟨replica', hreplica', hon', hown⟩ :=
      hruns.own picked hmem (.inl ⟨hlabels.2.1, hlabels.2.2.1⟩)
    obtain ⟨ip, hip⟩ := hown.address
    obtain ⟨found, hfound, hfound_id, hfound_ws⟩ := findEntry_of_isFirstOn hdistinct hfirst
    rw [← hfound_id, ← hfound_ws] at hpicked
    have hresolved : listener.resolveTarget (req.host.getD "") canonical.pathname =
        .ok ⟨"http://" ++ ip ++ ":" ++ toString picked.port, picked.id⟩ :=
      resolveTarget_ok_iff.mpr
        ⟨found, hlookup.trans hfound, picked, hpicked, hown.running, ip, hip, rfl⟩
    have hreply := (handleRequest_forwarded_iff hpath hpublic).mpr
      ⟨(authenticate_ok_iff hsigned).mpr hknows, _, hresolved, rfl⟩
    exact ⟨replica', hreplica', hon', picked, hmem, hown, hreply⟩

end Fleet

namespace Sample

/-- Texts that count as signed when they repeat the signed text under the key. -/
def platform : Platform where
  number s := if s = "0" then some 0 else none
  numberText _ := "0"
  parseUrl target := some ⟨"placeholder.invalid", target, ""⟩
  verify text signature jwk := signature = jwk.x ++ ":" ++ text

def ingressTables (snapshot : HostTableSnapshot) : HostTables where
  ingressTable := some ⟨0, 1, 0, ⟨snapshot.rules, snapshot.signingKeys⟩⟩

def runtimeTables (snapshot : HostTableSnapshot) (nodeId : String) : HostTables where
  runtimeTable := some ⟨0, 1, 0, snapshot.runtimeEntries nodeId⟩

def ingressListener (snapshot : HostTableSnapshot) : IngressListener where
  nodeId := "edge"
  selfMeshIp := none
  signingIdentity := ⟨"kid-edge", fun text ↦ jwk.x ++ ":" ++ text⟩
  tables := ingressTables snapshot

def runtimeListener (snapshot : HostTableSnapshot) (nodeId meshIp : String) : RuntimeListener where
  selfMeshIp := meshIp
  tables := runtimeTables snapshot nodeId
  containers := []
  replayCache := []

def notesRule : IngressRule := ⟨"notes.apps.test", "notes", "acme", ["10.88.0.1"], false⟩

/-- The app that the node of the rule resolves a request for this host to. -/
def resolved (rawHost : String) : Option String :=
  ((runtimeListener separateNodes "n1" "10.88.0.1").tables.findRuntimeAppByHost
    ((forwardedRequest (ingressListener separateNodes) platform { host := some rawHost } "192.0.2.1"
      ("nonce", 0) "10.88.0.1").host.getD "")).map RuntimeTableEntry.appId

end Sample

theorem forwarded_resolves_lowerCase :
    ∃ entry, (Sample.runtimeListener Sample.separateNodes "n1" "10.88.0.1").tables.findRuntimeAppByHost
        ((forwardedRequest (Sample.ingressListener Sample.separateNodes) Sample.platform
          { host := some "notes.apps.test" } "192.0.2.1" ("nonce", 0) "10.88.0.1").host.getD "") =
          some entry ∧
      entry.appId = Sample.notesRule.appId := by
  have hdistinct : ([Sample.app "notes" "notes" .mcpV3 ["n1"]].map MasterApp.appId).Nodup := by
    decide
  apply (forwarded_resolves_iff hdistinct (by decide) Sample.platform
    (Sample.ingressListener Sample.separateNodes)
    (Sample.runtimeListener Sample.separateNodes "n1" "10.88.0.1")
    (Sample.node "n1" none (some "10.88.0.1")) rfl rfl { host := some "notes.apps.test" }
    "notes.apps.test" "192.0.2.1" ("nonce", 0) "10.88.0.1" rfl Sample.notesRule (by decide +kernel)
    (by decide +kernel) (by decide) rfl).mpr
  exact .inl (by decide +kernel)

/-- The ingress listener finds the rule for a header in capitals; the node does not find the app. -/
theorem forwarded_unresolved_upperCase :
    (Sample.ingressListener Sample.separateNodes).findRule (some "Notes.Apps.Test") =
        some Sample.notesRule ∧
      Sample.node "n1" none (some "10.88.0.1") ∈ Sample.separateNodes.runtimeNodes ∧
      "10.88.0.1" ∈ Sample.notesRule.nodes ∧
      Sample.resolved "Notes.Apps.Test" = none := by
  decide +kernel

namespace Sample

/-- One app on a node that has both roles, in the container of its replica. -/
def servedApp (kind : AppKind) : MasterApp := app "notes" "notes" kind ["b1"]

def served (kind : AppKind) : HostTableSnapshot :=
  buildSnapshot "apps.test" [servedApp kind] [bothNode] []

def servedAgents (kind : AppKind) : Agents :=
  (pushSnapshot (fun _ ↦ true) ⟨0, 1, served kind⟩ 0 noTables).2

def replica : AppReplica :=
  { replicaId := "r-b1", nodeId := "b1", containerId := "notes-b1", state := "running" }

def container (kind : AppKind) : DockerContainer where
  dockerId := "docker-1"
  labels := deployedLabels (servedApp kind) replica
  status := "running"
  created := 0
  networks := [("privos-ws-acme", "172.20.0.5")]

def servingListener (kind : AppKind) : RuntimeListener where
  selfMeshIp := "10.88.0.3"
  tables := servedAgents kind "b1"
  containers := [container kind]
  replayCache := []

/-- A request as the node's own ingress listener signs it. -/
def request : HttpRequest :=
  forwardedRequest (ingressListener sharedNode) platform { host := some "notes.apps.test" }
    "192.0.2.1" ("nonce", 0) "10.88.0.3"

def parsedHeaders : ParsedSignatureHeaders where
  targetNodeId := "10.88.0.3"
  nonce := "nonce"
  ts := 0
  kid := "kid-edge"
  clientIp := "192.0.2.1"
  signature := jwk.x ++ ":" ++ canonicalSigningString platform
    { targetNodeId := "10.88.0.3", nonce := "nonce", ts := 0, method := "GET",
      host := "notes.apps.test", requestTarget := "/", clientIp := "192.0.2.1" }

theorem published (kind : AppKind) :
    (pushSnapshot (fun _ ↦ true) ⟨0, 1, served kind⟩ 0 noTables).1 := by
  cases kind <;> decide

theorem pushed (kind : AppKind) : Pushed (served kind) (servedAgents kind) :=
  pushed_of_published (published kind) (fun _ ↦ rfl) fun _ ↦ rfl

theorem isContainerOf (kind : AppKind) : IsContainerOf (servedApp kind) replica (container kind) where
  labels _ _ := rfl
  id := by cases kind <;> decide
  running := by cases kind <;> decide
  address := ⟨"172.20.0.5", by cases kind <;> decide⟩

theorem runsOn (kind : AppKind) : RunsOn (servedApp kind) "b1" [container kind] where
  present found hfound _ := by
    have heq : found = replica := mem_singleton.mp hfound
    rw [heq]
    exact ⟨container kind, mem_cons_self, isContainerOf kind⟩
  own entry hentry _ := by
    have heq : entry = container kind := mem_singleton.mp hentry
    rw [heq]
    exact ⟨replica, mem_cons_self, rfl, isContainerOf kind⟩

theorem correctlySigned (kind : AppKind) :
    CorrectlySigned platform 0 (served kind) (servingListener kind) request parsedHeaders where
  read := rfl
  target := rfl
  fresh := by
    decide +kernel
  unseen := rfl
  signed := ⟨bothNode, mem_cons_self, ⟨"b1", "kid-edge", jwk⟩, rfl, rfl, by decide +kernel⟩

end Sample

theorem request_forwarded_mcpV3 :
    ForwardedTo [Sample.container .mcpV3] (Sample.servedApp .mcpV3) "b1"
      ((Sample.servingListener .mcpV3).handleRequest Sample.platform 0 Sample.request).1 := by
  have hdistinct : ([Sample.servedApp .mcpV3].map MasterApp.appId).Nodup := by decide
  apply (request_forwarded_iff hdistinct Sample.platform 0 (Sample.servedAgents .mcpV3)
    (Sample.pushed .mcpV3) (Sample.servedApp .mcpV3) mem_cons_self "notes.apps.test"
    Sample.bothNode mem_cons_self (Sample.servingListener .mcpV3) rfl (Sample.runsOn .mcpV3)
    Sample.request Sample.parsedHeaders (Sample.correctlySigned .mcpV3) rfl ⟨"/", ""⟩ rfl
    (by decide +kernel)).mpr
  apply And.intro rfl
  apply And.intro
  · exact ⟨⟨"b1", "kid-edge", Sample.jwk⟩, by decide +kernel, by decide +kernel⟩
  · unfold IsFirstOn
    decide +kernel

/-- The container of an mcp-v2 app runs on the node of its rule, and the answer is 502. -/
theorem request_refused_mcpV2 :
    (Sample.servedApp .mcpV2).state = .running ∧
      Pushed (Sample.served .mcpV2) (Sample.servedAgents .mcpV2) ∧
      RunsOn (Sample.servedApp .mcpV2) "b1" (Sample.servingListener .mcpV2).containers ∧
      CorrectlySigned Sample.platform 0 (Sample.served .mcpV2) (Sample.servingListener .mcpV2)
        Sample.request Sample.parsedHeaders ∧
      ((Sample.served .mcpV2).findRule "notes.apps.test").isSome = true ∧
      ((Sample.servingListener .mcpV2).handleRequest Sample.platform 0 Sample.request).1 =
        .plain 502 "502 Bad Gateway" :=
  ⟨rfl, Sample.pushed .mcpV2, Sample.runsOn .mcpV2, Sample.correctlySigned .mcpV2,
    by decide +kernel, by decide +kernel⟩

end PrivosCluster.Routing
