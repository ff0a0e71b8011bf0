import PrivosCluster.Master.DeploymentFootprint
import PrivosCluster.Master.RemovedIsTerminal

/-!
# The freeze of an inventory

Deployments of a generation and recoveries of its inventory run side by side, and any of them may
finalize the inventory. Each finalizes what it read before, but the affinity of a stored inventory
never changes, and every write is guarded by CAPTURING. So whichever comes first freezes it,
under the hash of the affinity and the resources that are stored.
-/

namespace PrivosCluster

open AsyncProgram DocumentStore RuntimeInventory DeploymentV3

/-- Inventories are told apart by their id. -/
def inventoryIdentity : Identity RuntimeResourceInventory String inventoryKeys where
  id := RuntimeResourceInventory.inventoryId
  key inventoryId := ⟨["inventoryId"], [inventoryId]⟩
  indexed _ := List.mem_append_left _ List.mem_cons_self

def World.inventory (w : World) (inventoryId : String) : Option RuntimeResourceInventory :=
  w.runtimeResourceInventories.lookup inventoryIdentity inventoryId

variable {inventoryId : String}

variable {w : World}

theorem World.inventory_eq_some {inventory : RuntimeResourceInventory} :
    w.inventory inventoryId = some inventory ↔
      inventory ∈ w.runtimeResourceInventories.docs ∧ inventory.inventoryId = inventoryId :=
  Collection.lookup_eq_some

/-- The stored hash is the hash of the stored affinity and resources. -/
def HashMatches (crypto : Crypto) (inventory : RuntimeResourceInventory) : Prop :=
  ∃ hash, inventory.runtimeResourceInventoryHash = some hash ∧
    runtimeResourceInventoryHashV3 crypto (affinityOf inventory) inventory.expectedResources =
      .ok hash

/-- The operations that write the inventory of a generation. -/
inductive InventoryOperation where
  | deploy (workspaceId : String) (grant : McpDeploymentGrantPayloadV3)
      (deploymentGrantHash : String) (hubIdentity : HubIdentity)
  | recover (workspaceId runtimeInstallationId : String)

def InventoryOperation.program (deps : DeploymentDeps) : InventoryOperation → Async Unit
  | .deploy workspaceId grant deploymentGrantHash hubIdentity => do
    let _ ← deployMcpV3 deps workspaceId grant deploymentGrantHash hubIdentity
  | .recover workspaceId runtimeInstallationId => do
    let _ ← recoverMcpV3InventoryAttestation deps workspaceId runtimeInstallationId

def InventoryOperation.pool {ι : Type} (deps : DeploymentDeps) (operations : ι → InventoryOperation)
    (w : World) : Pool signature JsError World ι :=
  ⟨fun i ↦ (operations i).program deps, w⟩

/-! ## What a finalization stores -/

theorem hashMatches_of_finalize {crypto : Crypto}
    {inventory stored finalized : RuntimeResourceInventory}
    {resources : List RuntimeResourceDescriptor} {time : Time}
    (h : finalizeRuntimeResourceInventoryV3 crypto inventory resources time = .ok finalized)
    (haffinity : affinityOf stored = affinityOf inventory) :
    HashMatches crypto (finalizedAs finalized stored) := by
  unfold finalizeRuntimeResourceInventoryV3 at h
  split at h
  · cases h
  · simp only [bind, Except.bind] at h
    split at h
    · cases h
    next expectedResources _ =>
      split at h
      · cases h
      · split at h
        · cases h
        next hash hhash =>
          split at h
          · cases h
          · injection h with h
            rw [← h]
            refine ⟨hash, rfl, ?_⟩
            rw [← hhash]
            exact congrArg (runtimeResourceInventoryHashV3 crypto · expectedResources) haffinity

/-! ## The threads -/

section

variable {D : Discipline signature World} {KI : RuntimeResourceInventory → Prop}

variable {law : Law} {deps : DeploymentDeps}
  (hsame : ∀ c w w', D.assumes c w →
    w'.runtimeResourceInventories = w.runtimeResourceInventories → D.ensures w w')
  (hknown : ∀ op w, D.assumes (.runtimeResourceInventories op) w →
    ∀ inventory ∈ w.runtimeResourceInventories.docs, KI inventory)
include hsame hknown

theorem looks_of_inventories :
    Looks law D ⟨fun _ ↦ True, fun _ ↦ True, fun _ ↦ True⟩ KI := by
  have hplain : ∀ c x w, c.IsPlain →
      (respond c x w).2.runtimeResourceInventories = w.runtimeResourceInventories := by
    intro c x w hc
    cases c with
    | runtimeResourceInventories op => exact serveStore_of_isRead hc
    | _ => rfl
  exact Looks.of (fun c x w hc hw ↦ hsame c w _ hw (hplain c x w hc)) (fun _ _ _ _ _ ↦ trivial)
    (fun _ _ _ _ _ ↦ trivial) hknown

/-- A discipline that speaks of inventories only lets all other calls through. -/
theorem allowed_of_inventories {workspaceId deploymentGrantHash : String}
    {grant : McpDeploymentGrantPayloadV3} {hubIdentity : HubIdentity}
    (writes : AllowsInventories law D KI deps.crypto) :
    Allowed law D ⟨fun _ ↦ True, fun _ ↦ True, fun _ ↦ True⟩ KI deps workspaceId grant
      deploymentGrantHash hubIdentity := by
  have hother {c : Call} {Q : c.Answer → Prop} (hQ : ∀ a, Q a)
      (hc : ∀ x w, (respond c x w).2.runtimeResourceInventories = w.runtimeResourceInventories) :
      Allows law D c Q := fun x w hw _ ↦ ⟨hsame c w _ hw (hc x w), fun a _ ↦ hQ a⟩
  constructor
  case inserts => exact fun _ _ ↦ hother (fun _ ↦ trivial) fun _ _ ↦ rfl
  case revives => exact fun _ _ ↦ hother (fun _ _ ↦ trivial) fun _ _ ↦ rfl
  case toAllowsProvision =>
    constructor
    case looks => exact looks_of_inventories hsame hknown
    case inventories => exact writes
    case deploys => exact fun _ _ _ _ _ _ _ _ _ _ ↦ hother (fun _ ↦ trivial) fun _ _ ↦ rfl
    case records => exact fun _ _ _ _ _ _ _ ↦ hother (fun _ ↦ trivial) fun _ _ ↦ rfl
    case finalizes => exact fun _ _ _ _ _ _ _ _ ↦ hother (fun _ ↦ trivial) fun _ _ ↦ rfl
    case awaits => exact fun _ _ _ ↦ hother (fun _ ↦ trivial) fun _ _ ↦ rfl

theorem InventoryOperation.meets (writes : AllowsInventories law D KI deps.crypto) :
    ∀ operation : InventoryOperation,
      Meets (cluster law) D (fun _ ↦ True) (operation.program deps) := by
  intro operation
  cases operation with
  | deploy workspaceId grant deploymentGrantHash hubIdentity =>
    exact (deployMcpV3_meets (allowed_of_inventories hsame hknown writes)).seq fun _ ↦ trivial
  | recover workspaceId runtimeInstallationId =>
    have hlooks := (looks_of_inventories hsame hknown : Looks law D _ KI)
    exact (recoverMcpV3InventoryAttestation_meets hlooks writes).seq fun _ ↦ trivial

end

/-! ## The frame and the invariant -/

theorem state_of_build {affinity : Affinity} {createdAt : Time}
    {capturing : RuntimeResourceInventory}
    (h : buildCapturingRuntimeResourceInventoryV3 inventoryId affinity createdAt = .ok capturing) :
    capturing.state = .capturing := by
  unfold buildCapturingRuntimeResourceInventoryV3 at h
  split at h
  · cases h
  · simp only [bind, Except.bind] at h
    split at h
    · cases h
    · injection h with h
      rw [← h]

/-- Stored inventories stay, with their affinity, and a READY one as it is. -/
def Preserves (w w' : World) : Prop :=
  ∀ inventory ∈ w.runtimeResourceInventories.docs,
    ∃ inventory' ∈ w'.runtimeResourceInventories.docs,
      inventory'.inventoryId = inventory.inventoryId ∧
      affinityOf inventory' = affinityOf inventory ∧
      (inventory.state = .ready → inventory' = inventory)

theorem Preserves.refl (w : World) : Preserves w w :=
  fun inventory h ↦ ⟨inventory, h, rfl, rfl, fun _ ↦ rfl⟩

theorem Preserves.trans {w' w'' : World} (h : Preserves w w') (h' : Preserves w' w'') :
    Preserves w w'' := by
  intro inventory hinventory
  obtain ⟨inventory', hmem, hid, haffinity, hready⟩ := h inventory hinventory
  obtain ⟨inventory'', hmem', hid', haffinity', hready'⟩ := h' inventory' hmem
  refine ⟨inventory'', hmem', hid'.trans hid, haffinity'.trans haffinity, fun hstate ↦ ?_⟩
  have hsame := hready hstate
  rw [hready' (hsame ▸ hstate), hsame]

/-- An update of captured inventories that keeps their identity and affinity. -/
theorem preserves_updateOne {update : RuntimeResourceInventory → RuntimeResourceInventory}
    {x : Choice} (hid : ∀ inventory, (update inventory).inventoryId = inventory.inventoryId)
    (haffinity : ∀ inventory, affinityOf (update inventory) = affinityOf inventory) :
    Preserves w (respond (.runtimeResourceInventories
      (.updateOne (isCapturing inventoryId) update)) x w).2 := by
  intro inventory hinventory
  have hdocs := docs_serveStore_updateOne (isCapturing inventoryId) update x
    w.runtimeResourceInventories
  obtain hdocs | hdocs := hdocs
  · exact ⟨inventory, hdocs ▸ hinventory, rfl, rfl, fun _ ↦ rfl⟩
  · obtain hmem | ⟨hfilter, hmem⟩ := mem_updateFirst_or hinventory
    · exact ⟨inventory, hdocs ▸ hmem, rfl, rfl, fun _ ↦ rfl⟩
    · refine ⟨update inventory, hdocs ▸ hmem, hid inventory, haffinity inventory, fun hready ↦ ?_⟩
      simp [isCapturing, hready] at hfilter

theorem writes_preserve {law : Law} {KI : RuntimeResourceInventory → Prop} {crypto : Crypto} :
    AllowsInventories law (.frame Preserves) KI crypto where
  opens _ _ _ capturing _ x w _ _ := by
    refine ⟨fun inventory hinventory ↦ ⟨inventory, ?_, rfl, rfl, fun _ ↦ rfl⟩, fun _ _ ↦ trivial⟩
    exact mem_serveStore_of_not_selects hinventory id
  captures _ _ _ _ _ _ _ :=
    ⟨preserves_updateOne (fun _ ↦ rfl) fun _ ↦ rfl, fun _ _ ↦ trivial⟩
  finalizes _ _ _ _ _ _ _ _ _ _ :=
    ⟨preserves_updateOne (fun _ ↦ rfl) fun _ ↦ rfl, fun _ _ ↦ trivial⟩

/-- The stored inventory with this id, if there is one, has this affinity. -/
def HasAffinity (inventoryId : String) (affinity : Affinity) (w : World) : Prop :=
  ∀ inventory ∈ w.runtimeResourceInventories.docs, inventory.inventoryId = inventoryId →
    affinityOf inventory = affinity

/-- The stored inventory with this id is finalized under its hash. -/
def FinalizedByHash (crypto : Crypto) (inventoryId : String) (w : World) : Prop :=
  ∀ inventory ∈ w.runtimeResourceInventories.docs, inventory.inventoryId = inventoryId →
    inventory.state = .ready → HashMatches crypto inventory

theorem HasAffinity.before {affinity : Affinity} {w' : World} (h : Preserves w w')
    (hw' : HasAffinity inventoryId affinity w') : HasAffinity inventoryId affinity w := by
  intro inventory hinventory hid
  obtain ⟨inventory', hmem, hid', haffinity, -⟩ := h inventory hinventory
  exact haffinity.symm.trans (hw' inventory' hmem (hid'.trans hid))

section

variable {crypto : Crypto} {inventoryId : String} {affinity : Affinity}

theorem FinalizedByHash.respond {op : Operation RuntimeResourceInventory} {x : Choice}
    (h : FinalizedByHash crypto inventoryId w)
    (hwrites : ∀ inventory, op.Writes w.runtimeResourceInventories.docs inventory →
      inventory.inventoryId = inventoryId → inventory.state = .ready →
      HashMatches crypto inventory) :
    FinalizedByHash crypto inventoryId (respond (.runtimeResourceInventories op) x w).2 := by
  intro inventory hinventory hid hready
  obtain hmem | hwritten := mem_serveStore hinventory
  · exact h inventory hmem hid hready
  · exact hwrites inventory hwritten hid hready

theorem writes_finalize {law : Law} : AllowsInventories law
    (.under (HasAffinity inventoryId affinity) (FinalizedByHash crypto inventoryId))
    (fun inventory ↦ inventory.inventoryId = inventoryId → affinityOf inventory = affinity)
    crypto where
  opens _ _ _ capturing hcapturing x w hw _ := by
    refine ⟨hw.2.respond fun inventory hwritten _ hready ↦ ?_, fun _ _ ↦ trivial⟩
    have hsame : inventory = capturing := hwritten
    rw [hsame, state_of_build hcapturing] at hready
    cases hready
  captures _ _ _ x w hw _ := by
    refine ⟨hw.2.respond fun inventory hwritten _ hready ↦ ?_, fun _ _ ↦ trivial⟩
    obtain ⟨stored, -, hfilter, rfl⟩ := hwritten
    have hstate : stored.state = .ready := hready
    simp [isCapturing, hstate] at hfilter
  finalizes read _ _ finalized hread hfinalized x w hw _ := by
    refine ⟨hw.2.respond fun inventory hwritten hid _ ↦ ?_, fun _ _ ↦ trivial⟩
    obtain ⟨stored, hstored, hfilter, rfl⟩ := hwritten
    have hstoredId : stored.inventoryId = inventoryId := hid
    have hreadId : read.inventoryId = inventoryId := by
      simp only [isCapturing, Bool.and_eq_true, beq_iff_eq] at hfilter
      exact hfilter.1.symm.trans hstoredId
    have hsame : affinityOf stored = affinityOf read :=
      (hw.1 stored hstored hstoredId).trans (hread hreadId).symm
    exact hashMatches_of_finalize hfinalized hsame

end

theorem InventoryOperation.preserves {law : Law} {deps : DeploymentDeps}
    (operation : InventoryOperation) :
    Meets (cluster law) (.frame Preserves) (fun _ ↦ True) (operation.program deps) :=
  meets
    (fun _ _ _ _ hsame inventory h ↦ ⟨inventory, hsame ▸ h, rfl, rfl, fun _ ↦ rfl⟩)
    (fun _ _ _ _ _ ↦ trivial) writes_preserve operation

theorem InventoryOperation.finalizes {law : Law} {deps : DeploymentDeps} {affinity : Affinity}
    (operation : InventoryOperation) :
    Meets (cluster law)
      (.under (HasAffinity inventoryId affinity) (FinalizedByHash deps.crypto inventoryId))
      (fun _ ↦ True) (operation.program deps) :=
  meets (D := .under (HasAffinity inventoryId affinity) (FinalizedByHash deps.crypto inventoryId))
    (fun _ _ _ hw hsame inventory h ↦ hw.2 inventory (hsame ▸ h))
    (fun _ _ hw inventory h ↦ hw.1 inventory h) writes_finalize operation

/--
Once an inventory is READY, its hash is that of its stored affinity and resources, and from then
on the stored document stays as it is, whatever the interleaving, the faults of the database and
the answers of the agents, and wherever an attempt stops.
-/
theorem ready_inventory_frozen {ι : Type} [DecidableEq ι] {deps : DeploymentDeps}
    {operations : ι → InventoryOperation} {w : World}
    {pool₁ pool₂ : Pool signature JsError World ι} {before after : List (Event signature Choice ι)}
    {inventoryId : String} {inventory : RuntimeResourceInventory}
    (hstart : ∀ stored, w.inventory inventoryId = some stored → stored.state ≠ .ready)
    (run₁ : Pool.Run (cluster anyLaw) (InventoryOperation.pool deps operations w) before pool₁)
    (run₂ : Pool.Run (cluster anyLaw) pool₁ after pool₂)
    (hinventory : pool₁.state.inventory inventoryId = some inventory)
    (hready : inventory.state = .ready) :
    HashMatches deps.crypto inventory ∧ pool₂.state.inventory inventoryId = some inventory := by
  obtain ⟨hmem, hid⟩ := World.inventory_eq_some.mp hinventory
  have hframe : ∀ i, Meets (cluster anyLaw) (.frame Preserves) (fun _ ↦ True)
      ((InventoryOperation.pool deps operations w).threads i) :=
    fun i ↦ (operations i).preserves
  constructor
  · have hempty : FinalizedByHash deps.crypto inventoryId w := by
      intro stored hmem' hid' hready'
      exact absurd hready' (hstart stored (World.inventory_eq_some.mpr ⟨hmem', hid'⟩))
    have haffinity : HasAffinity inventoryId (affinityOf inventory) pool₁.state := by
      intro inventory' hmem' hid'
      have hsame : inventory' = inventory :=
        Collection.eq_of_mem_of_id inventoryIdentity hmem' hmem (hid'.trans hid.symm)
      rw [hsame]
    have hfinalized := (run₁.keeps_under Preserves.refl (fun _ _ _ ↦ Preserves.trans) hframe
      (fun _ _ ↦ HasAffinity.before) (fun i ↦ (operations i).finalizes) hempty haffinity).1
    exact hfinalized inventory hmem hid hready
  · have hthreads := (run₁.frame Preserves.refl (fun _ _ _ ↦ Preserves.trans) hframe).2
    have hafter := (run₂.frame Preserves.refl (fun _ _ _ ↦ Preserves.trans) hthreads).1
    obtain ⟨inventory', hmem', hid', -, hsame⟩ := hafter inventory hmem
    rw [hsame hready] at hmem'
    exact World.inventory_eq_some.mpr ⟨hmem', hid⟩

namespace Sample

def crypto : Crypto := ⟨fun _ ↦ "AAAAAAAAAAAAAAAAAAAAAAAAAAAAAAAAAAAAAAAAAAA", fun _ ↦ "", fun _ ↦ none⟩

def deploymentDeps : DeploymentDeps where
  crypto := crypto
  baseDomain := "example.com"
  noDefaultHost := false
  emitAppPublicUrl := true
  legacyPublicUrlAlias := false
  securityProfileAllowlist := []
  emitSecurityProfile := false
  appHosts := false

/-- A generation whose inventory has captured the route of the app. -/
def capturing : RuntimeResourceInventory where
  inventoryId := inventoryIdOf crypto "acme" "" "" "installation"
  clusterId := "cluster"
  workspaceId := "acme"
  deploymentId := "deployment"
  generationId := "generation"
  generationNumber := 1
  runtimeInstallationId := "installation"
  clusterAppId := "notes"
  manifestDigest := "sha256:aaaaaaaaaaaaaaaaaaaaaaaaaaaaaaaaaaaaaaaaaaaaaaaaaaaaaaaaaaaaaaaa"
  resourceManifestHash := "AAAAAAAAAAAAAAAAAAAAAAAAAAAAAAAAAAAAAAAAAAA"
  expectedResources := [⟨.ingress, "route", .installationGeneration, none, none, []⟩]
  state := .capturing
  createdAt := 0
  updatedAt := 0

def capturingWorld : World :=
  { world { app (some .mcpV3) .provisioning none with
      mcpRuntimeInstallationId := some "installation" } (by decide) with
    runtimeResourceInventories := ⟨[capturing], by decide +kernel⟩ }

/-- Two recoveries of one inventory. -/
def recoveries : Pool signature JsError World (Fin 2) :=
  InventoryOperation.pool deploymentDeps (fun _ ↦ .recover "acme" "installation") capturingWorld

/-- The first recovery runs to its end, and then the second. -/
def recovered : List (Event signature Choice (Fin 2)) × Pool signature JsError World (Fin 2) :=
  raced (List.replicate 10 0) recoveries

def recoveredAgain : List (Event signature Choice (Fin 2)) × Pool signature JsError World (Fin 2) :=
  raced (List.replicate 10 1) recovered.2

theorem recovered_ready :
    (recovered.2.state.inventory capturing.inventoryId).map (·.state) = some .ready := by
  decide +kernel

end Sample

/-- The first recovery finalizes the inventory, the second leaves it alone. -/
theorem ready_inventory_frozen_recovered : ∃ inventory,
    Sample.recovered.2.state.inventory Sample.capturing.inventoryId = some inventory ∧
      HashMatches Sample.crypto inventory ∧
      Sample.recoveredAgain.2.state.inventory Sample.capturing.inventoryId = some inventory := by
  obtain ⟨inventory, hinventory, hready⟩ := Option.map_eq_some_iff.mp Sample.recovered_ready
  have hstart : ∀ stored, Sample.capturingWorld.inventory Sample.capturing.inventoryId = some stored →
      stored.state ≠ .ready := by
    intro stored hstored
    have hsame : stored = Sample.capturing :=
      List.mem_singleton.mp (World.inventory_eq_some.mp hstored).1
    rw [hsame]
    decide
  have run₁ : Pool.Run (cluster anyLaw) Sample.recoveries Sample.recovered.1 Sample.recovered.2 :=
    Pool.run_play _ _ _
  have run₂ : Pool.Run (cluster anyLaw) Sample.recovered.2 Sample.recoveredAgain.1
      Sample.recoveredAgain.2 := Pool.run_play _ _ _
  exact ⟨inventory, hinventory, ready_inventory_frozen hstart run₁ run₂ hinventory hready⟩

end PrivosCluster
