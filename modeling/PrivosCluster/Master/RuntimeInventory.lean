import PrivosCluster.Master.AgentClient

/-!
# Runtime resource inventories

The inventory of one runtime generation: what its affinity and its descriptors must look like,
their normal form, and the hash that binds an attestation to them.
-/

namespace PrivosCluster

namespace Schema

/-- The number of UTF-16 units, as `length` counts them. -/
def lengthOf (s : String) : Nat := (Json.utf16Units s).length

def isLowerHex (c : Char) : Bool := c.isDigit || ('a' ≤ c && c ≤ 'f')

def isHex (c : Char) : Bool := isLowerHex c || ('A' ≤ c && c ≤ 'F')

/-- `/^sha256:[a-f0-9]{64}$/` -/
def isDigest (s : String) : Bool :=
  let chars := s.toList
  chars.take 7 == "sha256:".toList && (chars.drop 7).length == 64 && (chars.drop 7).all isLowerHex

/-- `/^[A-Za-z0-9_-]{43}$/` -/
def isArtifactHash (s : String) : Bool :=
  s.toList.length == 43 && s.toList.all fun c ↦ c.isAlphanum || c == '_' || c == '-'

def isIdentifier (s : String) : Bool := 1 ≤ lengthOf s && lengthOf s ≤ 160

/-- Five groups of hexadecimal digits, as the schema library checks a UUID. -/
def isUuid (s : String) : Bool :=
  let groups := s.toList.splitOn '-'
  groups.map (·.length) == [8, 4, 4, 4, 12] && groups.all fun group ↦ group.all isHex

def isReasonChar (c : Char) : Bool := c.isUpper || c.isDigit || c == '_'

/-- `/^[A-Z][A-Z0-9_]{1,95}$/` -/
def isSafeReasonCode (s : String) : Bool :=
  match s.toList with
  | [] => false
  | first :: rest => first.isUpper && 1 ≤ rest.length && rest.length ≤ 95 && rest.all isReasonChar

def schemaError (path : String) : JsError := { message := "invalid " ++ path }

end Schema

namespace RuntimeInventory

open Schema

def optionalText (value : Option String) : Json := value.elim .null .str

def descriptorJson (resource : RuntimeResourceDescriptor) : Json :=
  .obj [("kind", .str resource.kind.text), ("resourceId", .str resource.resourceId),
    ("ownershipScope", .str resource.ownershipScope.text), ("nodeId", optionalText resource.nodeId),
    ("replicaId", optionalText resource.replicaId),
    ("attributes", .ofRecord resource.attributes)]

def descriptorsJson (resources : List RuntimeResourceDescriptor) : Json :=
  .arr (resources.map descriptorJson)

def parseDescriptor (resource : RuntimeResourceDescriptor) :
    Except JsError RuntimeResourceDescriptor :=
  if !isIdentifier resource.resourceId then .error (schemaError "resourceId")
  else if !resource.nodeId.all isIdentifier then .error (schemaError "nodeId")
  else if !resource.replicaId.all isUuid then .error (schemaError "replicaId")
  else .ok resource

def identity (resource : RuntimeResourceDescriptor) : RuntimeResourceKind × String :=
  (resource.kind, resource.resourceId)

def descriptorSortKey (resource : RuntimeResourceDescriptor) : String :=
  resource.kind.text ++ "\x00" ++ resource.resourceId ++ "\x00" ++
    canonicalJson (descriptorJson resource)

def normalizeRuntimeResourcesV3 (resources : List RuntimeResourceDescriptor) :
    Except JsError (List RuntimeResourceDescriptor) := do
  let parsed ← resources.mapM parseDescriptor
  if (parsed.map identity).Nodup then
    .ok (parsed.insertionSort fun l r ↦ Json.keyLe (descriptorSortKey l) (descriptorSortKey r))
  else .error { message := "runtime_resource_identity_duplicate" }

/-- The generation an inventory belongs to. -/
structure Affinity where
  clusterId : String
  workspaceId : String
  deploymentId : String
  generationId : String
  generationNumber : Nat
  runtimeInstallationId : String
  clusterAppId : String
  manifestDigest : String
  resourceManifestHash : String
deriving DecidableEq

def affinityOf (inventory : RuntimeResourceInventory) : Affinity where
  clusterId := inventory.clusterId
  workspaceId := inventory.workspaceId
  deploymentId := inventory.deploymentId
  generationId := inventory.generationId
  generationNumber := inventory.generationNumber
  runtimeInstallationId := inventory.runtimeInstallationId
  clusterAppId := inventory.clusterAppId
  manifestDigest := inventory.manifestDigest
  resourceManifestHash := inventory.resourceManifestHash

def assertInventoryAffinityV3 (affinity : Affinity) : Except JsError Unit :=
  if [affinity.clusterId, affinity.workspaceId, affinity.deploymentId, affinity.generationId,
      affinity.runtimeInstallationId, affinity.clusterAppId].all isIdentifier &&
    1 ≤ affinity.generationNumber && isDigest affinity.manifestDigest &&
    isArtifactHash affinity.resourceManifestHash
  then .ok () else .error { message := "runtime_resource_inventory_affinity_invalid" }

def runtimeResourceInventoryHashV3 (crypto : Crypto) (affinity : Affinity)
    (resources : List RuntimeResourceDescriptor) : Except JsError String := do
  assertInventoryAffinityV3 affinity
  let expectedResources ← normalizeRuntimeResourcesV3 resources
  .ok (crypto.sha256Base64Url (canonicalJson (.obj
    [("protocolVersion", .num 3), ("clusterId", .str affinity.clusterId),
      ("workspaceId", .str affinity.workspaceId), ("deploymentId", .str affinity.deploymentId),
      ("generationId", .str affinity.generationId),
      ("generationNumber", .num affinity.generationNumber),
      ("runtimeInstallationId", .str affinity.runtimeInstallationId),
      ("clusterAppId", .str affinity.clusterAppId),
      ("manifestDigest", .str affinity.manifestDigest),
      ("resourceManifestHash", .str affinity.resourceManifestHash),
      ("expectedResources", descriptorsJson expectedResources)])))

def buildCapturingRuntimeResourceInventoryV3 (inventoryId : String) (affinity : Affinity)
    (createdAt : Time) : Except JsError RuntimeResourceInventory :=
  if inventoryId = "" then .error { message := "runtime_resource_inventory_identity_invalid" }
  else do
    assertInventoryAffinityV3 affinity
    .ok
      { inventoryId
        clusterId := affinity.clusterId
        workspaceId := affinity.workspaceId
        deploymentId := affinity.deploymentId
        generationId := affinity.generationId
        generationNumber := affinity.generationNumber
        runtimeInstallationId := affinity.runtimeInstallationId
        clusterAppId := affinity.clusterAppId
        manifestDigest := affinity.manifestDigest
        resourceManifestHash := affinity.resourceManifestHash
        expectedResources := []
        state := .capturing
        createdAt
        updatedAt := createdAt }

/-- The inventory with its resources and their hash fixed. -/
def finalizeRuntimeResourceInventoryV3 (crypto : Crypto) (inventory : RuntimeResourceInventory)
    (resources : List RuntimeResourceDescriptor) (finalizedAt : Time) :
    Except JsError RuntimeResourceInventory :=
  if inventory.state ≠ .capturing ∧ inventory.state ≠ .ready then
    .error { message := "runtime_resource_inventory_not_finalizable" }
  else do
    let expectedResources ← normalizeRuntimeResourcesV3 resources
    if expectedResources.isEmpty then .error { message := "runtime_resource_inventory_empty" }
    else do
      let hash ← runtimeResourceInventoryHashV3 crypto (affinityOf inventory) expectedResources
      if inventory.state = .ready ∧ (inventory.runtimeResourceInventoryHash ≠ some hash ∨
          canonicalJson (descriptorsJson inventory.expectedResources) ≠
            canonicalJson (descriptorsJson expectedResources)) then
        .error { message := "runtime_resource_inventory_finalization_conflict" }
      else
        .ok { inventory with
          runtimeResourceInventoryHash := some hash
          expectedResources
          state := .ready
          updatedAt := finalizedAt }

/-- `$addToSet` with `$each` -/
def addToSet (present added : List RuntimeResourceDescriptor) : List RuntimeResourceDescriptor :=
  added.foldl (fun set resource ↦ if set.contains resource then set else set ++ [resource]) present

end RuntimeInventory

end PrivosCluster
