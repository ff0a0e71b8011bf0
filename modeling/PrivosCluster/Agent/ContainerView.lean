import PrivosCluster.Agent.ContainerLabels

/-!
# Containers as the agent reports them

The labels of a container and a few facts of Docker are mapped to the container that the API shows
and that the master reads. Of the protocol of an MCP container, the label of its schema alone tells.
-/

namespace PrivosCluster.Agent.DockerStateMapper

open Routing

/-- A mount as Docker lists it. -/
structure DockerMount where
  type : Option String
  name : Option String
  destination : Option String

/-- What the mapping reads of an inspection, or of an entry of a listing. -/
structure DockerFacts where
  labels : Labels
  dockerContainerId : String
  imageRef : String
  state : ContainerState
  createdFallbackMs : Int
  mounts : List DockerMount

def defaultResources : ContainerResources := ⟨256, 1 / 2, 64⟩

def labelOrNull (labels : Labels) (key : String) : Option String := truthy (labels.lookup key)

/-- `typeof value === 'number'` -/
def number? : Json → Option Rat
  | .num n => some n
  | _ => none

/-- A count, where a number is given. -/
def count? (value : Json) : Option Nat :=
  (number? value).bind fun n ↦ if n.den = 1 ∧ 0 ≤ n.num then some n.num.toNat else none

/-- The value of a label that is there, not empty and JSON. -/
def parsedLabel (platform : AgentPlatform) (raw : Option String) : Option Json :=
  (truthy raw).bind platform.parseJson

/-- A text that is not JSON, or no object, has none of the members. -/
def parseResources (platform : AgentPlatform) (raw : Option String) : ContainerResources :=
  match parsedLabel platform raw with
  | some (.obj members) =>
    { memoryMb := ((members.lookup "memoryMb").bind count?).getD defaultResources.memoryMb
      cpus := ((members.lookup "cpus").bind number?).getD defaultResources.cpus
      tmpSizeMb := ((members.lookup "tmpSizeMb").bind count?).getD defaultResources.tmpSizeMb }
  | _ => defaultResources

/-- The members that are texts; an array has its indices as names. -/
def parseEnv (platform : AgentPlatform) (raw : Option String) : List (String × String) :=
  match parsedLabel platform raw with
  | some (.obj members) =>
    members.filterMap fun member ↦ (Schema.text? member.2).map fun value ↦ (member.1, value)
  | some (.arr items) =>
    items.zipIdx.filterMap fun item ↦
      (Schema.text? item.1).map fun value ↦ (toString item.2, value)
  | _ => []

/-- The name that the volume was declared with. -/
def volumeName (id name : String) : String :=
  let start := "mcp-vol-".toList ++ id.toList.take 12 ++ ['-']
  if start.isPrefixOf name.toList then String.ofList (name.toList.drop start.length) else name

def parseVolumes (mounts : List DockerMount) (id : String) : List Volume :=
  mounts.filterMap fun mount ↦
    (truthy mount.name).bind fun name ↦
      if mount.type = some "volume" then
        some { name := volumeName id name, mountPath := mount.destination.getD "", sizeMb := none }
      else none

/-- `/^\d+$/` -/
def isDigits (text : String) : Bool := !text.toList.isEmpty && text.toList.all Char.isDigit

/-- The time of creation, as the label tells it. -/
def createdAtLabel (platform : AgentPlatform) (labels : Labels) : Option Int :=
  let createdAtRaw := (labels.lookup "privos.created-at").getD ""
  if isDigits createdAtRaw then parseInt createdAtRaw else platform.parseDate createdAtRaw

def createdAt (platform : AgentPlatform) (facts : DockerFacts) : Int :=
  match createdAtLabel platform facts.labels with
  | some time => if 0 < time then time else fallback
  | none => fallback
where
  fallback : Int := if facts.createdFallbackMs ≠ 0 then facts.createdFallbackMs else platform.now

/-- `imageRef.split(':')[0]` -/
def imageName (imageRef : String) : String :=
  String.ofList (imageRef.toList.takeWhile (· ≠ ':'))

def schemaOf (labels : Labels) : Option String := labels.lookup "privos.mcp.schema"

/-- The container of the API, as far as the master reads it. -/
def buildContainer (platform : AgentPlatform) (facts : DockerFacts) (oomKilledAt : Option Time) :
    PrivosCluster.Container :=
  let labels := facts.labels
  let id := (labelOrNull labels "privos.id").getD facts.dockerContainerId
  { id := id
    appId := labelOrNull labels "privos.app-id"
    listingId := labelOrNull labels "privos.listing"
    versionDigest := labelOrNull labels "privos.version.digest"
    image := (labelOrNull labels "privos.image").getD (imageName facts.imageRef)
    imageDigest := labelOrNull labels "privos.image.digest"
    state := facts.state
    port := ((parseInt ((labels.lookup "privos.port").getD "0")).getD 0).toNat
    resources := parseResources platform (labels.lookup "privos.resources")
    envVars := parseEnv platform (labels.lookup "privos.env")
    createdAt := createdAt platform facts
    volumes := parseVolumes facts.mounts id
    subdomain := labelOrNull labels "privos.subdomain"
    mcpV2 := schemaOf labels = some "2" || schemaOf labels = some "3"
    mcpV3 := schemaOf labels = some "3"
    oomKilledAt := oomKilledAt }

section Schema

variable {platform : AgentPlatform} {facts : DockerFacts} {oomKilledAt : Option Time}

theorem buildContainer_mcpV3 : (buildContainer platform facts oomKilledAt).mcpV3 ↔
    schemaOf facts.labels = some "3" := by
  simp [buildContainer]

end Schema

end PrivosCluster.Agent.DockerStateMapper
