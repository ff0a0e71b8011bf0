import Mathlib.Data.Finset.Card
import PrivosCluster.Master.Placement

/-!
# Which placements the scheduler finds

A choice of one node takes nothing from a node of another failure domain, so the scheduler may
choose greedily: it places all replicas whenever some placement exists.
-/

namespace PrivosCluster.Scheduler

open List

/-- The node has room for one replica beside what is reserved on it. -/
def HasRoom (reservations : List NodeReservation) (resources : ContainerResources)
    (storageBytes : Nat) (node : MasterNode) : Prop :=
  (resources.memoryMb : Int) ≤ (remainingNodeCapacity node reservations).memoryMb ∧
    resources.cpus ≤ (remainingNodeCapacity node reservations).cpus ∧
    (storageBytes : Int) ≤ (remainingNodeCapacity node reservations).diskBytes

instance (reservations : List NodeReservation) (resources : ContainerResources)
    (storageBytes : Nat) (node : MasterNode) :
    Decidable (HasRoom reservations resources storageBytes node) :=
  inferInstanceAs (Decidable (_ ∧ _ ∧ _))

/-- Replicas on distinct nodes in distinct failure domains, each with room for its replica. -/
structure Placement (nodes : List MasterNode) (reservations : List NodeReservation)
    (resources : ContainerResources) (storageBytes replicas : Nat)
    (selected : List MasterNode) : Prop where
  count : selected.length = replicas
  nodes_distinct : (selected.map (·.nodeId)).Nodup
  domains_distinct : (selected.map (·.failureDomain)).Nodup
  usable : ∀ node ∈ selected, node ∈ nodes ∧ node.status = .active ∧
    HasRoom reservations resources storageBytes node

/-- The failure domains with an active node that has room. -/
def usableDomains (nodes : List MasterNode) (reservations : List NodeReservation)
    (resources : ContainerResources) (storageBytes : Nat) : Finset String :=
  ((nodes.filter fun node ↦ node.status = .active ∧
    HasRoom reservations resources storageBytes node).map (·.failureDomain)).toFinset

section Choice

variable {nodes active selected : List MasterNode} {reservations : List NodeReservation}
  {resources : ContainerResources} {storageBytes : Nat} {node chosen : MasterNode}

theorem mem_usableDomains {domain : String} :
    domain ∈ usableDomains nodes reservations resources storageBytes ↔
      ∃ node ∈ nodes, node.status = .active ∧ HasRoom reservations resources storageBytes node ∧
        node.failureDomain = domain := by
  simp [usableDomains, and_assoc]

/-- What a chosen node reserves. -/
def reserved (resources : ContainerResources) (storageBytes : Nat) (node : MasterNode) :
    NodeReservation :=
  ⟨node.nodeId, resources.memoryMb, resources.cpus, storageBytes⟩

/-- The replicas on other nodes take no room of this one. -/
theorem remainingNodeCapacity_append (h : node.nodeId ∉ selected.map (·.nodeId)) :
    remainingNodeCapacity node (reservations ++ selected.map (reserved resources storageBytes)) =
      remainingNodeCapacity node reservations := by
  have hnone : (selected.map (reserved resources storageBytes)).filter
      (fun reservation ↦ reservation.nodeId == node.nodeId) = [] := by
    rw [filter_eq_nil_iff]
    intro reservation hreservation hnode
    obtain ⟨item, hitem, rfl⟩ := List.mem_map.mp hreservation
    apply h
    rw [← eq_of_beq hnode]
    exact List.mem_map_of_mem hitem
  simp only [remainingNodeCapacity, filter_append, hnone, append_nil]

theorem chooseNode_eq_some
    (h : chooseNode active reservations resources storageBytes selected = some chosen) :
      chosen ∈ active ∧ chosen.nodeId ∉ selected.map (·.nodeId) ∧
        chosen.failureDomain ∉ selected.map (·.failureDomain) ∧
        HasRoom reservations resources storageBytes chosen := by
  simp only [chooseNode, Option.map_eq_some_iff] at h
  obtain ⟨candidate, hhead, rfl⟩ := h
  have hmem := (mem_insertionSort _).mp (mem_of_mem_head? hhead)
  simp only [mem_filter, List.mem_map] at hmem
  obtain ⟨⟨node, ⟨hactive, hapart⟩, rfl⟩, hroom⟩ := hmem
  simp only [Bool.not_eq_true', List.any_eq_false, Bool.or_eq_true, beq_iff_eq, not_or] at hapart
  simp only [Bool.and_eq_true, decide_eq_true_eq] at hroom
  refine ⟨hactive, ?_, ?_, hroom.1.1, hroom.1.2, hroom.2⟩
  · intro hid
    obtain ⟨item, hitem, hid⟩ := List.mem_map.mp hid
    exact (hapart item hitem).1 hid
  · intro hdomain
    obtain ⟨item, hitem, hdomain⟩ := List.mem_map.mp hdomain
    exact (hapart item hitem).2 hdomain

theorem chooseNode_eq_none
    (h : chooseNode active reservations resources storageBytes selected = none)
    (hactive : node ∈ active) (hid : node.nodeId ∉ selected.map (·.nodeId))
    (hdomain : node.failureDomain ∉ selected.map (·.failureDomain)) :
    ¬ HasRoom reservations resources storageBytes node := by
  intro hroom
  simp only [chooseNode, Option.map_eq_none_iff, head?_eq_none_iff] at h
  have hempty := List.Perm.eq_nil (h ▸ (perm_insertionSort _ _).symm)
  rw [filter_eq_nil_iff] at hempty
  apply hempty (node, remainingNodeCapacity node reservations)
  · apply List.mem_map.mpr
    refine ⟨node, mem_filter.mpr ⟨hactive, ?_⟩, rfl⟩
    simp only [Bool.not_eq_true', List.any_eq_false, Bool.or_eq_true, beq_iff_eq, not_or]
    intro item hitem
    exact ⟨fun h ↦ hid (List.mem_map.mpr ⟨item, hitem, h⟩),
      fun h ↦ hdomain (List.mem_map.mpr ⟨item, hitem, h⟩)⟩
  · simp only [Bool.and_eq_true, decide_eq_true_eq]
    exact ⟨⟨hroom.1, hroom.2.1⟩, hroom.2.2⟩

theorem hasRoom_append (h : node.nodeId ∉ selected.map (·.nodeId)) :
    HasRoom (reservations ++ selected.map (reserved resources storageBytes)) resources storageBytes
        node ↔
      HasRoom reservations resources storageBytes node := by
  simp only [HasRoom, remainingNodeCapacity_append h]

/-! ## One replica after the other -/

/-- The failure domains that are left for the next replicas. -/
def domainsLeft (nodes : List MasterNode) (reservations : List NodeReservation)
    (resources : ContainerResources) (storageBytes : Nat) (selected : List MasterNode) :
    Finset String :=
  usableDomains nodes reservations resources storageBytes \
    (selected.map (·.failureDomain)).toFinset

/-- The next replica goes to a node in a domain that is left, and its domain is left no more. -/
theorem Placement.extend
    (h : Placement nodes reservations resources storageBytes selected.length selected)
    (hchosen : chooseNode (nodes.filter (·.status == .active))
      (reservations ++ selected.map (reserved resources storageBytes)) resources storageBytes
      selected = some chosen) :
    Placement nodes reservations resources storageBytes (selected ++ [chosen]).length
        (selected ++ [chosen]) ∧
      chosen.failureDomain ∈ domainsLeft nodes reservations resources storageBytes selected ∧
      domainsLeft nodes reservations resources storageBytes (selected ++ [chosen]) =
        (domainsLeft nodes reservations resources storageBytes selected).erase
          chosen.failureDomain := by
  obtain ⟨hmem, hid, hdomain, hroom⟩ := chooseNode_eq_some hchosen
  rw [hasRoom_append hid] at hroom
  obtain ⟨hnode, hactive⟩ := mem_filter.mp hmem
  have hstatus : chosen.status = .active := eq_of_beq hactive
  refine ⟨⟨rfl, ?_, ?_, ?_⟩, ?_, ?_⟩
  · rw [map_append, nodup_append]
    refine ⟨h.nodes_distinct, nodup_singleton _, ?_⟩
    intro id hid' id' hid''
    rw [map_singleton, mem_singleton] at hid''
    exact hid'' ▸ fun heq ↦ hid (heq ▸ hid')
  · rw [map_append, nodup_append]
    refine ⟨h.domains_distinct, nodup_singleton _, ?_⟩
    intro domain hdomain' domain' hdomain''
    rw [map_singleton, mem_singleton] at hdomain''
    exact hdomain'' ▸ fun heq ↦ hdomain (heq ▸ hdomain')
  · exact forall_mem_append.mpr
      ⟨h.usable, forall_mem_singleton.mpr ⟨hnode, hstatus, hroom⟩⟩
  · rw [domainsLeft, Finset.mem_sdiff, List.mem_toFinset]
    exact ⟨mem_usableDomains.mpr ⟨chosen, hnode, hstatus, hroom, rfl⟩, hdomain⟩
  · ext domain
    simp only [domainsLeft, Finset.mem_sdiff, Finset.mem_erase, List.mem_toFinset,
      map_append, map_singleton, mem_append, mem_singleton, not_or]
    tauto

/-- No node is found only when no domain is left: a usable node of a domain that is left is itself
left, since node ids are distinct. -/
theorem domainsLeft_eq_empty (hids : (nodes.map (·.nodeId)).Nodup)
    (h : Placement nodes reservations resources storageBytes selected.length selected)
    (hnone : chooseNode (nodes.filter (·.status == .active))
      (reservations ++ selected.map (reserved resources storageBytes)) resources storageBytes
      selected = none) :
    domainsLeft nodes reservations resources storageBytes selected = ∅ := by
  rw [Finset.eq_empty_iff_forall_notMem]
  intro domain hdomain
  rw [domainsLeft, Finset.mem_sdiff, List.mem_toFinset] at hdomain
  obtain ⟨husable, hleft⟩ := hdomain
  obtain ⟨node, hnode, hstatus, hroom, rfl⟩ := mem_usableDomains.mp husable
  have hid : node.nodeId ∉ selected.map (·.nodeId) := by
    intro hid
    obtain ⟨item, hitem, hid⟩ := List.mem_map.mp hid
    have hsame : item = node := inj_on_of_nodup_map hids (h.usable item hitem).1 hnode hid
    exact hleft (List.mem_map.mpr ⟨item, hitem, hsame ▸ rfl⟩)
  have hactive : node ∈ nodes.filter (·.status == .active) :=
    mem_filter.mpr ⟨hnode, beq_iff_eq.mpr hstatus⟩
  exact chooseNode_eq_none hnone hactive hid hleft ((hasRoom_append hid).mpr hroom)

/-- From a partial placement on, the rest is placed unless too few domains are left. -/
theorem selectFrom_spec (hids : (nodes.map (·.nodeId)).Nodup) (error : JsError) (replicas : Nat)
    (h : Placement nodes reservations resources storageBytes selected.length selected) :
    match selectFrom (nodes.filter (·.status == .active)) resources storageBytes error replicas
      (reservations ++ selected.map (reserved resources storageBytes)) selected with
    | .ok result =>
      Placement nodes reservations resources storageBytes (selected.length + replicas) result ∧
        replicas ≤ (domainsLeft nodes reservations resources storageBytes selected).card
    | .error e =>
      e = error ∧
        (domainsLeft nodes reservations resources storageBytes selected).card < replicas := by
  induction replicas generalizing selected with
  | zero => exact ⟨h, Nat.zero_le _⟩
  | succ replicas ih =>
    rw [selectFrom]
    cases hchoose : chooseNode (nodes.filter (·.status == .active))
      (reservations ++ selected.map (reserved resources storageBytes)) resources storageBytes
      selected with
    | none =>
      have hempty := domainsLeft_eq_empty hids h hchoose
      exact ⟨rfl, by simp [hempty]⟩
    | some chosen =>
      obtain ⟨hextended, hleft, herase⟩ := h.extend hchoose
      have hrest := ih hextended
      have hcard := Finset.card_erase_add_one hleft
      have hreserved : reservations ++ (selected ++ [chosen]).map (reserved resources storageBytes) =
          reservations ++ selected.map (reserved resources storageBytes) ++
            [⟨chosen.nodeId, resources.memoryMb, resources.cpus, storageBytes⟩] := by
        simp [reserved]
      have hlength : (selected ++ [chosen]).length + replicas = selected.length + (replicas + 1) := by
        simp only [length_append, length_singleton]
        omega
      rw [herase, hreserved, hlength] at hrest
      simp only
      split at hrest
      next result hresult =>
        exact ⟨hrest.1, by omega⟩
      next e hresult =>
        exact ⟨hrest.1, by omega⟩

end Choice

/-! ## All replicas -/

section Selection

variable {nodes : List MasterNode} {reservations : List NodeReservation}
  {resources : ContainerResources} {storageBytes replicas : Nat}

/-- A placement needs as many usable domains as it has replicas. -/
theorem Placement.le_card {selected : List MasterNode}
    (h : Placement nodes reservations resources storageBytes replicas selected) :
    replicas ≤ (usableDomains nodes reservations resources storageBytes).card := by
  have hsubset : (selected.map (·.failureDomain)).toFinset ⊆
      usableDomains nodes reservations resources storageBytes := by
    intro domain hdomain
    obtain ⟨node, hnode, rfl⟩ := List.mem_map.mp (List.mem_toFinset.mp hdomain)
    obtain ⟨hmem, hstatus, hroom⟩ := h.usable node hnode
    exact mem_usableDomains.mpr ⟨node, hmem, hstatus, hroom, rfl⟩
  calc replicas = (selected.map (·.failureDomain)).length := by rw [length_map, h.count]
    _ = (selected.map (·.failureDomain)).toFinset.card :=
      (toFinset_card_of_nodup h.domains_distinct).symm
    _ ≤ _ := Finset.card_le_card hsubset

end Selection

/-- Two active nodes in two failure domains. -/
def twoNodes : List MasterNode :=
  [⟨"a", "east", ⟨1024, 2, 100⟩, .active, none, none, 0⟩,
    ⟨"b", "west", ⟨512, 2, 100⟩, .active, none, none, 0⟩]

end PrivosCluster.Scheduler
