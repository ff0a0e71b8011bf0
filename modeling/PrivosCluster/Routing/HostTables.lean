import PrivosCluster.Master.Types

/-!
# The routing tables of the fleet

The publisher reads the apps, the nodes and the registered hosts, and computes from them the
rules of the ingress nodes and the entries of each runtime node. An agent keeps one table of
each kind in memory, replaced as a whole by a push with a higher revision.
-/

namespace PrivosCluster.Routing

inductive NodeRole where
  | ingress
  | runtime
  | both
deriving DecidableEq

/-- A node document with the fields that came with public hostnames. -/
structure FleetNode extends MasterNode where
  role : Option NodeRole := none
  meshIp : Option String := none
  ingressSigningKid : Option String := none
  ingressSigningPublicJwk : Option JsonWebKey := none
deriving DecidableEq

inductive AppHostKind where
  | tenant
  | vanity
  | custom
deriving DecidableEq

inductive AppHostState where
  | pending
  | active
  | suspended
  | wsSuspended
  | cfReleased
  | failed
  | deleting
deriving DecidableEq

/-- A row of `app_hosts`; its `_id` is the hostname. -/
structure AppHostRecord where
  hostname : String
  workspaceId : String
  appId : String
  listingId : String
  generationId : Option String := none
  kind : AppHostKind
  primary : Bool
  state : AppHostState
  cfHostnameId : Option String := none
  wsSuspendedAt : Option Time := none
  preSuspendState : Option AppHostState := none
  createdAt : Time
  updatedAt : Time
deriving DecidableEq

structure RuntimeTableEntry where
  appId : String
  workspaceId : String
  containerId : String
  hosts : List String
deriving DecidableEq

/-- A route of the ingress nodes; `nodes` are mesh addresses. -/
structure IngressRule where
  host : String
  appId : String
  workspaceId : String
  nodes : List String
  suspended : Bool
deriving DecidableEq

structure IngressSigningKey where
  nodeId : String
  kid : String
  publicJwk : JsonWebKey
deriving DecidableEq

structure HostTableSnapshot where
  apps : List MasterApp
  runtimeNodes : List FleetNode
  ingressNodes : List FleetNode
  rules : List IngressRule
  signingKeys : List IngressSigningKey

/-! ## The publisher -/

/-- An optional text as a condition: the empty text counts as absent. -/
def truthy (text : Option String) : Option String := text.filter (· ≠ "")

/-- A node without a role is one that only ever ran app containers. -/
def FleetNode.isRuntime (node : FleetNode) : Bool :=
  node.role = none || node.role = some .runtime || node.role = some .both

def FleetNode.isIngress (node : FleetNode) : Bool :=
  node.role = some .ingress || node.role = some .both

/-- The filter of the query for apps. -/
def appsQuery (app : MasterApp) : Bool :=
  app.state = .running || app.state = .quarantined || app.state = .stopped

/-- The filter of the query for nodes. -/
def nodesQuery (node : FleetNode) : Bool := node.status = .active

/-- The filter of the query for host rows. -/
def hostsQuery (host : AppHostRecord) : Bool :=
  host.state = .pending || host.state = .active || host.state = .suspended ||
    host.state = .wsSuspended

/-- The key an ingress node is registered with, if it is registered with one. -/
def FleetNode.signingKey (node : FleetNode) : Option IngressSigningKey :=
  match truthy node.ingressSigningKid, node.ingressSigningPublicJwk with
  | some kid, some publicJwk => some { nodeId := node.nodeId, kid, publicJwk }
  | _, _ => none

/-- The mesh addresses of the nodes that hold a replica, each once. -/
def meshIps (runtimeNodes : List FleetNode) (app : MasterApp) : List String :=
  (app.replicas.filterMap fun replica ↦
    (runtimeNodes.find? fun node ↦ node.nodeId = replica.nodeId).bind
      fun node ↦ truthy node.meshIp).eraseDups

/-- The rows of an app: `hostsByApp` is keyed by the app id alone. -/
def hostsByApp (hosts : List AppHostRecord) (appId : String) : List AppHostRecord :=
  hosts.filter fun host ↦ host.appId = appId

def hostRule (nodes : List String) (app : MasterApp) (host : AppHostRecord) : IngressRule where
  host := host.hostname
  appId := app.appId
  workspaceId := app.workspaceId
  nodes := nodes
  suspended := app.state ≠ .running || host.state = .wsSuspended || host.state = .suspended

/-- The rule of an app without a row, under its own default label. -/
def fallbackRule (baseDomain : String) (nodes : List String) (app : MasterApp) (label : String) :
    IngressRule where
  host := label ++ "." ++ baseDomain
  appId := app.appId
  workspaceId := app.workspaceId
  nodes := nodes
  suspended := app.state ≠ .running

def rulesOf (baseDomain : String) (runtimeNodes : List FleetNode) (hosts : List AppHostRecord)
    (app : MasterApp) : List IngressRule :=
  let nodes := meshIps runtimeNodes app
  let appHostRows := hostsByApp hosts app.appId
  if appHostRows ≠ [] then appHostRows.map (hostRule nodes app)
  else (truthy app.subdomain).toList.map (fallbackRule baseDomain nodes app)

/-- The snapshot of what the three queries returned. -/
def buildSnapshot (baseDomain : String) (apps : List MasterApp) (nodes : List FleetNode)
    (hosts : List AppHostRecord) : HostTableSnapshot :=
  let runtimeNodes := nodes.filter FleetNode.isRuntime
  let ingressNodes := nodes.filter FleetNode.isIngress
  { apps, runtimeNodes, ingressNodes,
    rules := apps.flatMap (rulesOf baseDomain runtimeNodes hosts),
    signingKeys := ingressNodes.filterMap FleetNode.signingKey }

/-- The hosts an app is reached under on a runtime node are those the rules route to it. -/
def HostTableSnapshot.hostsOf (snapshot : HostTableSnapshot) (appId : String) : List String :=
  (snapshot.rules.filter fun rule ↦ rule.appId = appId).map IngressRule.host

/-- The entries of one runtime node: one for each replica it holds. -/
def HostTableSnapshot.runtimeEntries (snapshot : HostTableSnapshot) (nodeId : String) :
    List RuntimeTableEntry :=
  snapshot.apps.flatMap fun app ↦
    (app.replicas.filter fun replica ↦ replica.nodeId = nodeId).map fun replica ↦
      { appId := app.appId, workspaceId := app.workspaceId, containerId := replica.containerId,
        hosts := snapshot.hostsOf app.appId }

def HostTableSnapshot.findRule (snapshot : HostTableSnapshot) (host : String) :
    Option IngressRule :=
  snapshot.rules.find? fun rule ↦ rule.host = host

def HostTableSnapshot.findEntry (snapshot : HostTableSnapshot) (nodeId host : String) :
    Option RuntimeTableEntry :=
  (snapshot.runtimeEntries nodeId).find? fun app ↦ app.hosts.contains host

/-! ## The agent -/

structure StoredTable (α : Type) where
  bootTimestamp : Int
  revision : Int
  receivedAt : Time
  table : α

structure IngressTable where
  rules : List IngressRule
  signingKeys : List IngressSigningKey
deriving DecidableEq

/-- The two tables an agent keeps in memory. -/
structure HostTables where
  runtimeTable : Option (StoredTable (List RuntimeTableEntry)) := none
  ingressTable : Option (StoredTable IngressTable) := none

structure RuntimeTableBody where
  bootTimestamp : Int
  revision : Int
  apps : List RuntimeTableEntry

structure IngressTableBody where
  bootTimestamp : Int
  revision : Int
  rules : List IngressRule
  signingKeys : List IngressSigningKey

/-- `RuntimeTableSchema`, on a body whose fields have the types of the schema. -/
def RuntimeTableBody.isValid (body : RuntimeTableBody) : Bool :=
  0 ≤ body.bootTimestamp && 0 < body.revision && body.apps.all fun app ↦
    app.appId ≠ "" && app.workspaceId ≠ "" && app.containerId ≠ ""

/-- `IngressTableSchema`, on a body whose fields have the types of the schema. -/
def IngressTableBody.isValid (body : IngressTableBody) : Bool :=
  0 ≤ body.bootTimestamp && 0 < body.revision &&
    (body.rules.all fun rule ↦ rule.host ≠ "" && rule.appId ≠ "" && rule.workspaceId ≠ "") &&
    body.signingKeys.all fun key ↦ key.nodeId ≠ "" && key.kid ≠ ""

/-- Newer wins on `revision` alone. -/
def isNewer {α : Type} (revision : Int) (current : Option (StoredTable α)) : Bool :=
  match current with
  | none => true
  | some stored => stored.revision < revision

inductive PutReply where
  | validationError
  | sent (applied : Bool) (revision : Option Int)
deriving DecidableEq

def PutReply.status : PutReply → Nat
  | .validationError => 400
  | .sent _ _ => 200

/-- What a push of a valid body leaves stored. -/
def accept {α : Type} (bootTimestamp revision : Int) (table : α) (now : Time)
    (current : Option (StoredTable α)) : PutReply × Option (StoredTable α) :=
  if isNewer revision current then
    (.sent true (some revision), some { bootTimestamp, revision, receivedAt := now, table })
  else (.sent false (current.map StoredTable.revision), current)

def HostTables.putRuntime (tables : HostTables) (body : RuntimeTableBody) (now : Time) :
    PutReply × HostTables :=
  if body.isValid then
    let (reply, stored) := accept body.bootTimestamp body.revision body.apps now tables.runtimeTable
    (reply, { tables with runtimeTable := stored })
  else (.validationError, tables)

def HostTables.putIngress (tables : HostTables) (body : IngressTableBody) (now : Time) :
    PutReply × HostTables :=
  if body.isValid then
    let (reply, stored) := accept body.bootTimestamp body.revision
      { rules := body.rules, signingKeys := body.signingKeys } now tables.ingressTable
    (reply, { tables with ingressTable := stored })
  else (.validationError, tables)

/-! ## The lookups of the listeners -/

def HostTables.findRuntimeAppByHost (tables : HostTables) (host : String) :
    Option RuntimeTableEntry :=
  tables.runtimeTable.bind fun stored ↦ stored.table.find? fun app ↦ app.hosts.contains host

def HostTables.findIngressRuleByHost (tables : HostTables) (host : String) : Option IngressRule :=
  tables.ingressTable.bind fun stored ↦ stored.table.rules.find? fun rule ↦ rule.host = host

def HostTables.findSigningKey (tables : HostTables) (kid : String) : Option IngressSigningKey :=
  tables.ingressTable.bind fun stored ↦ stored.table.signingKeys.find? fun key ↦ key.kid = kid

/-! ## A publication -/

/-- The tables of every agent, by node id. -/
abbrev Agents := String → HostTables

def Agents.set (agents : Agents) (nodeId : String) (tables : HostTables) : Agents :=
  fun other ↦ if other = nodeId then tables else agents other

/-- What one pass of a master sends: its boot time, its revision and its snapshot. -/
structure Publication where
  bootTimestamp : Int
  revision : Int
  snapshot : HostTableSnapshot

def Publication.runtimeBody (pass : Publication) (node : FleetNode) : RuntimeTableBody where
  bootTimestamp := pass.bootTimestamp
  revision := pass.revision
  apps := pass.snapshot.runtimeEntries node.nodeId

def Publication.ingressBody (pass : Publication) : IngressTableBody where
  bootTimestamp := pass.bootTimestamp
  revision := pass.revision
  rules := pass.snapshot.rules
  signingKeys := pass.snapshot.signingKeys

/-- A push that an agent answers; it fails on a status of 300 or more. -/
def pushRuntimeTable (pass : Publication) (now : Time) (node : FleetNode) (agents : Agents) :
    Bool × Agents :=
  let (reply, tables) := (agents node.nodeId).putRuntime (pass.runtimeBody node) now
  (reply.status < 300, agents.set node.nodeId tables)

def pushIngressTable (pass : Publication) (now : Time) (node : FleetNode) (agents : Agents) :
    Bool × Agents :=
  let (reply, tables) := (agents node.nodeId).putIngress pass.ingressBody now
  (reply.status < 300, agents.set node.nodeId tables)

/-- `Promise.allSettled` over the nodes: a push to a node that does not answer is a failed one. -/
def pushEach (answers : FleetNode → Bool) (push : FleetNode → Agents → Bool × Agents) :
    List FleetNode → Agents → Bool × Agents
  | [], agents => (true, agents)
  | node :: nodes, agents =>
    let (pushed, agents) := if answers node then push node agents else (false, agents)
    let (others, agents) := pushEach answers push nodes agents
    (pushed && others, agents)

/-- Runtime tables first, then ingress. The pass has succeeded when no push has failed. -/
def pushSnapshot (answers : FleetNode → Bool) (pass : Publication) (now : Time) (agents : Agents) :
    Bool × Agents :=
  let (runtimes, agents) := pushEach answers (pushRuntimeTable pass now) pass.snapshot.runtimeNodes agents
  let (ingresses, agents) := pushEach answers (pushIngressTable pass now) pass.snapshot.ingressNodes agents
  (runtimes && ingresses, agents)

end PrivosCluster.Routing
