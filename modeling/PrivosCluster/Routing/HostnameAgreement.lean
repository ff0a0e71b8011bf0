import PrivosCluster.Routing.WorkspaceSuspension

/-!
# Custom hostnames and the rows that record them

The worker creates and deletes custom hostnames at Cloudflare and then writes to the row of the
host. In between, the registry may delete the row, or bring it back into service. A custom hostname
that no row records is then left behind, or a row records one that does not exist any more. Where
the row is still as the worker has found it at each of its writes, rows and custom hostnames agree
as soon as nothing is in progress.
-/

namespace PrivosCluster.Routing

open AsyncProgram DocumentStore CfCustomHostnameWorker List Function Option

/-- Cloudflare has a custom hostname with our tag for the hostname. -/
def Tagged (s : Edge) (hostname id : String) : Prop :=
  ∃ custom ∈ s.customHostnames, custom.hostname = hostname ∧ custom.id = id ∧
    custom.registryTag = some hostname

/-- The CUSTOM row of the hostname records the custom hostname. -/
def Recorded (s : System) (hostname id : String) : Prop :=
  ∃ row ∈ s.appHosts.docs, row.kind = .custom ∧ row.hostname = hostname ∧
    row.cfHostnameId = some id

/-- The tagged custom hostnames are those that the rows record. -/
def Agrees (s : Edge) : Prop := ∀ hostname id, Tagged s hostname id ↔ Recorded s.system hostname id

/-- The id was given to a custom hostname for the hostname. -/
def Named (s : Edge) (hostname id : String) : Prop :=
  ∃ custom ∈ s.issued, custom.hostname = hostname ∧ custom.id = id

/-! ## Calls that succeed -/

/-- Cloudflare carries the request out and says so, and a list is complete. -/
structure CloudflareChoice.Succeeds (x : CloudflareChoice) : Prop where
  performed : x.performed = true
  answered : x.answered = true
  readable : x.readable = true
  success : x.success = true
  status : 200 ≤ x.status ∧ x.status < 300
  listed : x.listed = none

/-- A new custom hostname has an id that none ever had. -/
def NewId (s : Edge) (id : String) : Prop := id ≠ "" ∧ ∀ custom ∈ s.issued, custom.id ≠ id

/-- What a request that succeeds is answered, and does. -/
theorem CloudflareChoice.Succeeds.respond {x : EdgeChoice} (h : x.cloudflare.Succeeds)
    (request : CloudflareRequest) (s : Edge) :
    Edge.respond (.cloudflare request) x s =
      (.ok ⟨x.cloudflare.status, some ⟨true, request.result x.cloudflare s.customHostnames,
        x.cloudflare.errors⟩⟩, request.perform x.cloudflare s) := by
  simp only [Edge.respond, CloudflareRequest.response, h.answered, h.performed, h.readable,
    h.success, if_true]

/-- Every call to Cloudflare and every operation on the rows succeeds. -/
def succeeds : EdgeLaw
  | .system (.appHosts op), x, s => (serveBulk op x.system s.system.appHosts).1.isOk = true
  | .cloudflare (.create _ _), x, s => x.cloudflare.Succeeds ∧ NewId s x.cloudflare.newId
  | .cloudflare _, x, _ => x.cloudflare.Succeeds
  | _, _, _ => True

/-! ## Writes of the worker in step with the row -/

/--
The row that is to record a custom hostname is a CUSTOM row without another one, and the custom
hostname exists; if there is no such row, neither does the custom hostname.
-/
structure RecordsInStep (s : Edge) (hostname id : String) : Prop where
  found : ∀ row ∈ s.system.appHosts.docs, row.hostname = hostname →
    row.kind = .custom ∧ (row.cfHostnameId = none ∨ row.cfHostnameId = some id) ∧
      Tagged s hostname id
  missing : (∀ row ∈ s.system.appHosts.docs, row.hostname ≠ hostname) → ¬ Tagged s hostname id

/-- A CUSTOM row is in this state if and only if the custom hostname that it records is gone. -/
def ClearsInStep (s : Edge) (hostname : String) (state : AppHostState) : Prop :=
  ∀ row ∈ s.system.appHosts.docs, row.kind = .custom → row.hostname = hostname →
    ∀ id, row.cfHostnameId = some id → (row.state = state ↔ ¬ Tagged s hostname id)

/-- A write of the worker after a request to Cloudflare finds the row as the worker has read it. -/
def InStep (s : Edge) : RegistryOperation → EdgeCall → Prop
  | .runOnce, .system (.appHosts (.one (.updateOne filter update))) =>
    ∀ host id time, filter = isOf host → update = recordedAs host id time →
      RecordsInStep s host.hostname id
  | .runOnce, .system (.appHosts (.deleteMany filter)) =>
    ∀ host, (filter = fun row ↦ isOf host row && row.state == .deleting) →
      ClearsInStep s host.hostname .deleting
  | .releaseSuspendedCfHostnames _, .system (.appHosts (.one (.updateOne filter update))) =>
    ∀ host time, (filter = fun row ↦ isOf host row && row.state == .wsSuspended) →
      update = releasedAs time → ClearsInStep s host.hostname .wsSuspended
  | _, _ => True

/-! ## What a write does to the pairs -/

variable {filter : AppHostRecord → Bool} {c : EdgeCall} {retentionDays : Int} {deps : CfWorkerDeps}

section Pairs

variable {s : Edge} {x : EdgeChoice} {host : AppHostRecord} {hostname id : String} {time : Time}

theorem isOf_iff {row : AppHostRecord} : isOf host row ↔ row.hostname = host.hostname :=
  beq_iff_eq

/-- The rows after an update of the row of a hostname. -/
theorem docs_of_update {update : AppHostRecord → AppHostRecord}
    (hfilter : ∀ row, filter row → row.hostname = host.hostname)
    (h : succeeds (.system (.appHosts (.one (.updateOne filter update)))) x s) :
    (Edge.respond (.system (.appHosts (.one (.updateOne filter update)))) x s).2.system.appHosts.docs =
      s.system.appHosts.docs.map fun row ↦ if filter row then update row else row := by
  have hdocs := docs_of_updateOne_ok h
  have hids := s.system.appHosts.ids_nodup appHostIdentity
  exact hdocs.trans (updateFirst_eq_map hids hfilter)

/-- A record that is in step takes no pair away, and gives a row its custom hostname. -/
theorem records_pairs
    (h : succeeds (.system (.appHosts (.one (.updateOne (isOf host) (recordedAs host id time))))) x s)
    (hstep : RecordsInStep s host.hostname id) :
    let s' := (Edge.respond (.system (.appHosts (.one (.updateOne (isOf host)
      (recordedAs host id time))))) x s).2
    (∀ hostname id', Recorded s.system hostname id' → Recorded s'.system hostname id') ∧
      (∀ hostname id', Recorded s'.system hostname id' → Recorded s.system hostname id' ∨
        Tagged s hostname id') ∧
      (Tagged s host.hostname id → Recorded s'.system host.hostname id) := by
  intro s'
  have hdocs : s'.system.appHosts.docs = s.system.appHosts.docs.map fun row ↦
      if isOf host row then recordedAs host id time row else row :=
    docs_of_update (fun _ ↦ isOf_iff.mp) h
  have hmem : ∀ row ∈ s.system.appHosts.docs,
      (if isOf host row then recordedAs host id time row else row) ∈ s'.system.appHosts.docs := by
    intro row hrow
    rw [hdocs]
    exact List.mem_map_of_mem hrow
  refine ⟨?_, ?_, ?_⟩
  · rintro hostname id' ⟨row, hrow, hkind, hname, hid⟩
    refine ⟨_, hmem row hrow, ?_⟩
    split
    next hof =>
      have hcf := (hstep.found row hrow (isOf_iff.mp hof)).2.1
      rw [hid] at hcf
      have hsame : id' = id := by simpa using hcf
      exact ⟨hkind, hname, hsame ▸ rfl⟩
    next => exact ⟨hkind, hname, hid⟩
  · rintro hostname id' ⟨row, hrow, hkind, hname, hid⟩
    rw [hdocs] at hrow
    obtain ⟨before, hbefore, rfl⟩ := List.mem_map.mp hrow
    split at hid
    next hof =>
      rw [if_pos hof] at hname
      have hhostname : before.hostname = hostname := hname
      obtain rfl : id = id' := some.inj hid
      have hfound := hstep.found before hbefore (isOf_iff.mp hof)
      rw [← hhostname, isOf_iff.mp hof]
      exact .inr hfound.2.2
    next hother =>
      rw [if_neg hother] at hkind hname
      exact .inl ⟨before, hbefore, hkind, hname, hid⟩
  · intro htagged
    by_cases hany : ∃ row ∈ s.system.appHosts.docs, row.hostname = host.hostname
    · obtain ⟨row, hrow, hname⟩ := hany
      have hwritten := hmem row hrow
      rw [if_pos (isOf_iff.mpr hname)] at hwritten
      exact ⟨_, hwritten, (hstep.found row hrow hname).1, hname, rfl⟩
    · have hmissing : ∀ row ∈ s.system.appHosts.docs, row.hostname ≠ host.hostname :=
        fun row hrow hname ↦ hany ⟨row, hrow, hname⟩
      exact absurd htagged (hstep.missing hmissing)

/-- What is left of the pairs when a deleted custom hostname is cleared. -/
structure Cleared (s : Edge) (s' : System) (hostname : String) : Prop where
  shrinks : ∀ hostname' id, Recorded s' hostname' id → Recorded s.system hostname' id
  gone : ∀ id, Recorded s' hostname id → Tagged s hostname id
  kept : ∀ hostname' id, Recorded s.system hostname' id → Tagged s hostname' id →
    Recorded s' hostname' id

theorem removes_pairs
    (h : succeeds (.system (.appHosts (.deleteMany fun row ↦ isOf host row &&
      row.state == .deleting))) x s)
    (hstep : ClearsInStep s host.hostname .deleting) :
    Cleared s (Edge.respond (.system (.appHosts (.deleteMany fun row ↦ isOf host row &&
      row.state == .deleting))) x s).2.system host.hostname := by
  have hdocs := docs_of_deleteMany_ok h
  constructor
  · rintro hostname id ⟨row, hrow, hpair⟩
    have hrow' := (mem_filter.mp (hdocs ▸ hrow : row ∈ _)).1
    exact ⟨row, hrow', hpair⟩
  · rintro id ⟨row, hrow, hkind, hname, hid⟩
    obtain ⟨hrow', hkept⟩ := mem_filter.mp (hdocs ▸ hrow : row ∈ _)
    have hstate : row.state ≠ .deleting := by
      intro hstate
      simp [isOf, hname, hstate] at hkept
    by_contra hgone
    exact hstate ((hstep row hrow' hkind hname id hid).mpr hgone)
  · rintro hostname id ⟨row, hrow, hkind, hname, hid⟩ htagged
    have hkept : (!(isOf host row && row.state == .deleting)) := by
      by_cases hof : row.hostname = host.hostname
      · have hstate : row.state ≠ .deleting := by
          intro hstate
          apply (hstep row hrow hkind hof id hid).mp hstate
          rw [← hof, hname]
          exact htagged
        simp [hstate]
      · simp [isOf, hof]
    refine ⟨row, ?_, hkind, hname, hid⟩
    exact hdocs ▸ mem_filter.mpr ⟨hrow, hkept⟩

theorem releases_pairs
    (h : succeeds (.system (.appHosts (.one (.updateOne
      (fun row ↦ isOf host row && row.state == .wsSuspended) (releasedAs time))))) x s)
    (hstep : ClearsInStep s host.hostname .wsSuspended) :
    Cleared s (Edge.respond (.system (.appHosts (.one (.updateOne
      (fun row ↦ isOf host row && row.state == .wsSuspended) (releasedAs time))))) x s).2.system
        host.hostname := by
  have hfilter : ∀ row : AppHostRecord, (isOf host row && row.state == .wsSuspended) →
      row.hostname = host.hostname := by
    intro row hrow
    rw [Bool.and_eq_true] at hrow
    exact isOf_iff.mp hrow.1
  have hdocs := docs_of_update hfilter h
  have hbefore : ∀ row', row' ∈ (Edge.respond (.system (.appHosts (.one (.updateOne
      (fun row ↦ isOf host row && row.state == .wsSuspended) (releasedAs time))))) x
        s).2.system.appHosts.docs → ∀ id, row'.cfHostnameId = some id →
      row' ∈ s.system.appHosts.docs ∧
        ¬ (isOf host row' && row'.state == .wsSuspended) := by
    intro row' hrow' id hid
    rw [hdocs] at hrow'
    obtain ⟨row, hrow, rfl⟩ := List.mem_map.mp hrow'
    split at hid
    · cases hid
    next hother =>
      rw [if_neg hother]
      exact ⟨hrow, hother⟩
  constructor
  · rintro hostname id ⟨row, hrow, hkind, hname, hid⟩
    exact ⟨row, (hbefore row hrow id hid).1, hkind, hname, hid⟩
  · rintro id ⟨row, hrow, hkind, hname, hid⟩
    obtain ⟨hrow', hkept⟩ := hbefore row hrow id hid
    have hstate : row.state ≠ .wsSuspended := by
      intro hstate
      simp [isOf, hname, hstate] at hkept
    by_contra hgone
    exact hstate ((hstep row hrow' hkind hname id hid).mpr hgone)
  · rintro hostname id ⟨row, hrow, hkind, hname, hid⟩ htagged
    have hkept : ¬ (isOf host row && row.state == .wsSuspended) := by
      intro hmatch
      rw [Bool.and_eq_true, beq_iff_eq] at hmatch
      have hof := isOf_iff.mp hmatch.1
      apply (hstep row hrow hkind hof id hid).mp hmatch.2
      rw [← hof, hname]
      exact htagged
    refine ⟨row, ?_, hkind, hname, hid⟩
    rw [hdocs, List.mem_map]
    exact ⟨row, hrow, if_neg hkept⟩

end Pairs

/-! ## Threads with a write still to come -/

/-- What a pass has done at Cloudflare and has not yet written to a row. -/
inductive Pending where
  | created (hostname id : String)
  | deleted (id : String)

def pendingAfter (note : Option Pending) : (c : EdgeCall) → Except JsError c.Answer → Option Pending
  | .cloudflare (.create hostname _), .ok response =>
    response.envelope.map fun envelope ↦ .created hostname envelope.result.id
  | .cloudflare (.delete id), .ok _ => some (.deleted id)
  | .system (.appHosts (.one (.updateOne _ _))), .ok _ => none
  | .system (.appHosts (.deleteMany _)), .ok _ => none
  | _, _ => note

/-- A call that leaves the pairs, the custom hostnames and the pending write alone. -/
structure Idle (note : Option Pending) (c : EdgeCall) (x : EdgeChoice) (s : Edge) : Prop where
  pairs : ∀ hostname id,
    Recorded (Edge.respond c x s).2.system hostname id ↔ Recorded s.system hostname id
  customHostnames : (Edge.respond c x s).2.customHostnames = s.customHostnames
  issued : (Edge.respond c x s).2.issued = s.issued
  pending : pendingAfter note c (Edge.respond c x s).1 = note

/-- What a thread does: one request to Cloudflare at a time, and the write that belongs to it. -/
inductive Does : Option Pending → EdgeCall → EdgeChoice → Edge → Prop
  | idle {note : Option Pending} {c : EdgeCall} {x : EdgeChoice} {s : Edge}
      (h : Idle note c x s) : Does note c x s
  | creates (hostname : String) (x : EdgeChoice) (s : Edge) :
      Does none (.cloudflare (.create hostname hostname)) x s
  | deletes (id : String) (x : EdgeChoice) (s : Edge) : Does none (.cloudflare (.delete id)) x s
  | records {note : Option Pending} {host : AppHostRecord} {id : String} {s : Edge} (time : Time)
      (x : EdgeChoice) (hnote : note = none ∨ note = some (.created host.hostname id))
      (inStep : RecordsInStep s host.hostname id) :
      Does note (.system (.appHosts (.one (.updateOne (isOf host) (recordedAs host id time))))) x s
  | removes {host : AppHostRecord} {id : String} {s : Edge} (x : EdgeChoice)
      (named : Named s host.hostname id) (inStep : ClearsInStep s host.hostname .deleting) :
      Does (some (.deleted id))
        (.system (.appHosts (.deleteMany fun row ↦ isOf host row && row.state == .deleting))) x s
  | releases {host : AppHostRecord} {id : String} {s : Edge} (time : Time) (x : EdgeChoice)
      (named : Named s host.hostname id) (inStep : ClearsInStep s host.hostname .wsSuspended) :
      Does (some (.deleted id)) (.system (.appHosts (.one (.updateOne
        (fun row ↦ isOf host row && row.state == .wsSuspended) (releasedAs time))))) x s

/-- What every recorded pair is known to be. -/
def Known (s : Edge) : Prop :=
  ∀ hostname id, Recorded s.system hostname id → Named s hostname id ∧ id ≠ ""

/-- Among threads that write what they have done at Cloudflare. -/
def amongPasses (operation : RegistryOperation) :
    Contract edgeSignature JsError Edge EdgeChoice (Option Pending) where
  track note c answer := pendingAfter note c answer
  assumes c _ s := InStep s operation c ∧ Known s
  rely _ s s' := s.issued ⊆ s'.issued
  ensures note c x s := Does note c x s
  rely_refl _ _ _ := id
  rely_trans _ _ _ _ h h' _ hcustom := h' (h hcustom)

/-- Custom hostnames and rows agree but for what is pending. -/
structure Reconciled {ι : Type} (notes : ι → Option Pending) (s : Edge) : Prop where
  tagged : ∀ hostname id, Tagged s hostname id →
    Recorded s.system hostname id ∨ ∃ i, notes i = some (.created hostname id)
  recorded : ∀ hostname id, Recorded s.system hostname id →
    Tagged s hostname id ∨ ∃ i, notes i = some (.deleted id)
  named : ∀ hostname id, Recorded s.system hostname id → Named s hostname id
  issued : s.customHostnames ⊆ s.issued
  apart : (s.issued.map (·.id)).Nodup
  nonempty : ∀ custom ∈ s.issued, custom.id ≠ ""

section Team

variable {ι : Type} [DecidableEq ι] {notes : ι → Option Pending} {s : Edge} {i : ι} {x : EdgeChoice}

theorem issued_subset (c : EdgeCall) (x : EdgeChoice) (s : Edge) :
    s.issued ⊆ (Edge.respond c x s).2.issued := by
  cases c with
  | system c => exact List.Subset.refl _
  | cloudflare request =>
    simp only [Edge.respond]
    split
    · cases request with
      | create hostname tag => exact subset_cons_self _ _
      | _ => exact List.Subset.refl _
    · exact List.Subset.refl _
  | sleep ms => exact List.Subset.refl _

theorem Named.unique {hostname hostname' id : String} (h : Named s hostname id)
    (h' : Named s hostname' id) (hapart : (s.issued.map (·.id)).Nodup) : hostname = hostname' := by
  obtain ⟨custom, hcustom, rfl, hid⟩ := h
  obtain ⟨custom', hcustom', rfl, hid'⟩ := h'
  rw [inj_on_of_nodup_map hapart hcustom hcustom' (hid.trans hid'.symm)]

theorem Tagged.named {hostname id : String} (h : Tagged s hostname id)
    (hissued : s.customHostnames ⊆ s.issued) : Named s hostname id := by
  obtain ⟨custom, hcustom, hname, hid, -⟩ := h
  exact ⟨custom, hissued hcustom, hname, hid⟩

omit [DecidableEq ι] in
theorem Reconciled.known (h : Reconciled notes s) : Known s := by
  intro hostname id hrecorded
  have hnamed := h.named hostname id hrecorded
  refine ⟨hnamed, ?_⟩
  obtain ⟨custom, hcustom, -, rfl⟩ := hnamed
  exact h.nonempty custom hcustom

/-- A pending write is still there, unless it is that of the thread that has written. -/
theorem exists_update {P : Pending} {note : Option Pending} (hother : notes i ≠ some P)
    (h : ∃ j, notes j = some P) : ∃ j, Function.update notes i note j = some P := by
  obtain ⟨j, hj⟩ := h
  have hne : j ≠ i := by
    rintro rfl
    exact hother hj
  exact ⟨j, by rw [update_of_ne hne, hj]⟩

theorem Reconciled.idle (h : Reconciled notes s) (hidle : Idle (notes i) c x s) :
    Reconciled (Function.update notes i (notes i)) (Edge.respond c x s).2 := by
  rw [update_eq_self]
  have htagged : ∀ hostname id, Tagged (Edge.respond c x s).2 hostname id ↔ Tagged s hostname id := by
    intro hostname id
    unfold Tagged
    rw [hidle.customHostnames]
  have hnamed : ∀ hostname id, Named (Edge.respond c x s).2 hostname id ↔ Named s hostname id := by
    intro hostname id
    unfold Named
    rw [hidle.issued]
  constructor
  · intro hostname id hT
    rw [hidle.pairs]
    exact h.tagged hostname id ((htagged hostname id).mp hT)
  · intro hostname id hR
    rw [htagged]
    exact h.recorded hostname id ((hidle.pairs hostname id).mp hR)
  · intro hostname id hR
    rw [hnamed]
    exact h.named hostname id ((hidle.pairs hostname id).mp hR)
  · rw [hidle.customHostnames, hidle.issued]
    exact h.issued
  · rw [hidle.issued]
    exact h.apart
  · rw [hidle.issued]
    exact h.nonempty

theorem Reconciled.creates {hostname : String} (h : Reconciled notes s) (hnote : notes i = none)
    (hx : succeeds (.cloudflare (.create hostname hostname)) x s) :
    Reconciled (Function.update notes i (some (.created hostname x.cloudflare.newId)))
      (CloudflareRequest.perform x.cloudflare s (.create hostname hostname)) := by
  obtain ⟨hname, hnew⟩ := hx.2
  have hother : ∀ P, notes i ≠ some P := fun P hP ↦ nomatch hnote.symm.trans hP
  have hmore : s.issued ⊆ (CloudflareRequest.perform x.cloudflare s (.create hostname hostname)).issued :=
    subset_cons_self _ _
  constructor
  · rintro hostname' id ⟨custom, hcustom, hhostname, hid, htag⟩
    obtain hbefore | hadded := mem_append.mp hcustom
    · obtain hR | hpending := h.tagged hostname' id ⟨custom, hbefore, hhostname, hid, htag⟩
      · exact .inl hR
      · exact .inr (exists_update (hother _) hpending)
    · obtain rfl := mem_singleton.mp hadded
      obtain rfl : hostname = hostname' := hhostname
      obtain rfl : x.cloudflare.newId = id := hid
      exact .inr ⟨i, update_self _ _ _⟩
  · intro hostname' id hR
    obtain ⟨custom, hcustom, hpair⟩ | hpending := h.recorded hostname' id hR
    · exact .inl ⟨custom, mem_append_left _ hcustom, hpair⟩
    · exact .inr (exists_update (hother _) hpending)
  · intro hostname' id hR
    obtain ⟨custom, hcustom, hpair⟩ := h.named hostname' id hR
    exact ⟨custom, hmore hcustom, hpair⟩
  · intro custom hcustom
    obtain hbefore | hadded := mem_append.mp hcustom
    · exact hmore (h.issued hbefore)
    · obtain rfl := mem_singleton.mp hadded
      exact mem_cons_self
  · refine nodup_cons.mpr ⟨?_, h.apart⟩
    intro hused
    obtain ⟨custom, hcustom, hid⟩ := List.mem_map.mp hused
    exact hnew custom hcustom hid
  · intro custom hcustom
    obtain rfl | hbefore := mem_cons.mp hcustom
    · exact hname
    · exact h.nonempty custom hbefore

theorem Reconciled.deletes {id : String} (h : Reconciled notes s) (hnote : notes i = none) :
    Reconciled (Function.update notes i (some (.deleted id)))
      (CloudflareRequest.perform x.cloudflare s (.delete id)) := by
  have hother : ∀ P, notes i ≠ some P := fun P hP ↦ nomatch hnote.symm.trans hP
  constructor
  · rintro hostname id' ⟨custom, hcustom, hpair⟩
    obtain hR | hpending := h.tagged hostname id' ⟨custom, (mem_filter.mp hcustom).1, hpair⟩
    · exact .inl hR
    · exact .inr (exists_update (hother _) hpending)
  · intro hostname id' hR
    obtain ⟨custom, hcustom, hhostname, hid, htag⟩ | hpending := h.recorded hostname id' hR
    · by_cases hdeleted : id' = id
      · subst hdeleted
        exact .inr ⟨i, update_self _ _ _⟩
      · have hkept : (custom.id != id) := by
          rw [hid]
          exact bne_iff_ne.mpr hdeleted
        exact .inl ⟨custom, mem_filter.mpr ⟨hcustom, hkept⟩, hhostname, hid, htag⟩
    · exact .inr (exists_update (hother _) hpending)
  · exact h.named
  · exact fun custom hcustom ↦ h.issued (mem_filter.mp hcustom).1
  · exact h.apart
  · exact h.nonempty

/-- A record in step: the custom hostname that was created or adopted is the one of the row. -/
theorem Reconciled.records {host : AppHostRecord} {id : String} {time : Time}
    (h : Reconciled notes s)
    (hnote : notes i = none ∨ notes i = some (.created host.hostname id))
    (hstep : RecordsInStep s host.hostname id)
    (hx : succeeds
      (.system (.appHosts (.one (.updateOne (isOf host) (recordedAs host id time))))) x s) :
    Reconciled (Function.update notes i none) (Edge.respond (.system (.appHosts (.one
      (.updateOne (isOf host) (recordedAs host id time))))) x s).2 := by
  obtain ⟨hgrows, hback, hnew⟩ := records_pairs hx hstep
  constructor
  · intro hostname id' hT
    obtain hR | ⟨j, hj⟩ := h.tagged hostname id' hT
    · exact .inl (hgrows hostname id' hR)
    · by_cases hown : notes i = some (.created hostname id')
      · have hsame : notes i = some (.created host.hostname id) :=
          hnote.resolve_left fun hnone ↦ nomatch hnone.symm.trans hown
        have hpair := some.inj (hown.symm.trans hsame)
        injection hpair with hhostname hid
        rw [hhostname, hid] at hT ⊢
        exact .inl (hnew hT)
      · exact .inr (exists_update hown ⟨j, hj⟩)
  · intro hostname id' hR
    obtain hbefore | htagged := hback hostname id' hR
    · obtain htagged | hpending := h.recorded hostname id' hbefore
      · exact .inl htagged
      · refine .inr (exists_update ?_ hpending)
        intro hdeleted
        obtain hnone | hcreated := hnote
        · exact nomatch hnone.symm.trans hdeleted
        · exact nomatch hcreated.symm.trans hdeleted
    · exact .inl htagged
  · intro hostname id' hR
    obtain hbefore | htagged := hback hostname id' hR
    · exact h.named hostname id' hbefore
    · exact htagged.named h.issued
  · exact h.issued
  · exact h.apart
  · exact h.nonempty

/-- A write in step after a deletion: no row records the custom hostname any more. -/
theorem Reconciled.clears {host : AppHostRecord} {id : String} {op : BulkOperation AppHostRecord}
    (h : Reconciled notes s) (hnote : notes i = some (.deleted id))
    (hnamed : Named s host.hostname id)
    (hcleared : Cleared s (Edge.respond (.system (.appHosts op)) x s).2.system host.hostname) :
    Reconciled (Function.update notes i none) (Edge.respond (.system (.appHosts op)) x s).2 := by
  constructor
  · intro hostname id' hT
    obtain hR | hpending := h.tagged hostname id' hT
    · exact .inl (hcleared.kept hostname id' hR hT)
    · exact .inr (exists_update (fun hcreated ↦ nomatch hnote.symm.trans hcreated) hpending)
  · intro hostname id' hR
    have hbefore := hcleared.shrinks hostname id' hR
    obtain htagged | hpending := h.recorded hostname id' hbefore
    · exact .inl htagged
    · by_cases hown : notes i = some (.deleted id')
      · -- the row of the deleted custom hostname is that of the host
        have hdeleted := some.inj (hown.symm.trans hnote)
        injection hdeleted with hid
        have hhostname := (h.named hostname id' hbefore).unique (hid ▸ hnamed) h.apart
        rw [hhostname] at hR ⊢
        exact .inl (hcleared.gone id' hR)
      · exact .inr (exists_update hown hpending)
  · exact fun hostname id' hR ↦ h.named hostname id' (hcleared.shrinks hostname id' hR)
  · exact h.issued
  · exact h.apart
  · exact h.nonempty

theorem pendingAfter_write {note : Option Pending} {op : BulkOperation AppHostRecord}
    (hop : (∃ filter update, op = .one (.updateOne filter update)) ∨ ∃ filter, op = .deleteMany filter)
    (hx : succeeds (.system (.appHosts op)) x s) :
    pendingAfter note (.system (.appHosts op)) (Edge.respond (.system (.appHosts op)) x s).1 = none := by
  have hok : (Edge.respond (.system (.appHosts op)) x s).1.isOk = true := hx
  obtain ⟨filter, update, rfl⟩ | ⟨filter, rfl⟩ := hop
  · cases hanswer : (Edge.respond (.system (.appHosts (.one (.updateOne filter update)))) x s).1 with
    | ok result => rfl
    | error e =>
      rw [hanswer] at hok
      cases hok
  · cases hanswer : (Edge.respond (.system (.appHosts (.deleteMany filter))) x s).1 with
    | ok result => rfl
    | error e =>
      rw [hanswer] at hok
      cases hok

/-- One call of one thread. -/
theorem Reconciled.respond (h : Reconciled notes s) (hx : succeeds c x s)
    (hdoes : Does (notes i) c x s) :
    Reconciled (Function.update notes i (pendingAfter (notes i) c (Edge.respond c x s).1))
      (Edge.respond c x s).2 := by
  generalize hnote : notes i = note at hdoes
  cases hdoes with
  | idle hidle =>
    subst hnote
    rw [hidle.pending]
    exact h.idle hidle
  | creates hostname =>
    rw [hx.1.respond]
    exact h.creates hnote hx
  | deletes id =>
    rw [CloudflareChoice.Succeeds.respond hx]
    exact h.deletes (x := x) hnote
  | records time x hcreated inStep =>
    rw [pendingAfter_write (.inl ⟨_, _, rfl⟩) hx]
    exact h.records (hnote ▸ hcreated) inStep hx
  | removes x named inStep =>
    rw [pendingAfter_write (.inr ⟨_, rfl⟩) hx]
    exact h.clears hnote named (removes_pairs hx inStep)
  | releases time x named inStep =>
    rw [pendingAfter_write (.inl ⟨_, _, rfl⟩) hx]
    exact h.clears hnote named (releases_pairs hx inStep)

/-- Threads that write what they have done at Cloudflare fit together. -/
theorem passes_team {tasks : ι → RegistryOperation} : Team (edge succeeds)
    (fun i ↦ amongPasses (tasks i)) (fun _ _ note _ ↦ note = none) Reconciled where
  stable _ _ _ _ _ _ hnone := hnone
  fits _ s _ c x _ _ _ _ _ _ := issued_subset c x s
  keeps _ _ _ _ _ hJ hx _ hdoes := hJ.respond hx hdoes

end Team

/-! ## Requests to the registry -/

/-- No row gets or loses a custom hostname, and none that has one is deleted. -/
def KeepsPairs : BulkOperation AppHostRecord → Prop
  | .one (.findOne _) => True
  | .one (.find _) => True
  | .one (.insertOne row) => row.cfHostnameId = none
  | .one (.updateOne _ update) | .updateMany _ update => ∀ row,
    (update row).hostname = row.hostname ∧ (update row).kind = row.kind ∧
      (update row).cfHostnameId = row.cfHostnameId
  | .deleteMany filter => ∀ row, filter row = true → row.cfHostnameId = none
  | _ => False

section Requests

variable {operation : RegistryOperation} {s : Edge} {x : EdgeChoice}

variable {op : BulkOperation AppHostRecord}

theorem keepsPairs_of_retires (h : RegistryOperation.Retires op) : KeepsPairs op := by
  cases op with
  | one op => exact h.elim
  | updateMany filter update =>
    obtain ⟨time, rfl⟩ := h
    exact fun _ ↦ ⟨rfl, rfl, rfl⟩
  | deleteMany filter => exact h

theorem keepsPairs_of_writes (hop : operation.Writes op) (hpass : operation.isPass = false) :
    KeepsPairs op := by
  cases op with
  | one op =>
    cases op with
    | findOne | find => trivial
    | insertOne row =>
      cases operation with
      | reserve input => exact hop.2.2.2
      | setDesiredHosts input =>
        obtain ⟨host, -, time, rfl⟩ := hop
        rfl
      | setWorkspaceHostsSuspended workspaceId suspended => cases suspended <;> exact hop.elim
      | _ => exact hop.elim
    | updateOne filter update =>
      cases operation with
      | setDesiredHosts input =>
        obtain ⟨host, -, time, -, rfl⟩ := hop
        exact fun _ ↦ ⟨rfl, rfl, rfl⟩
      | setWorkspaceHostsSuspended workspaceId suspended => cases suspended <;> exact hop.elim
      | runOnce | releaseSuspendedCfHostnames => cases hpass
      | _ => exact hop.elim
    | upsertOne | insertMany | replaceOne =>
      cases operation with
      | setWorkspaceHostsSuspended workspaceId suspended => cases suspended <;> exact hop.elim
      | _ => exact hop.elim
  | updateMany filter update =>
    cases operation with
    | setDesiredHosts input => exact keepsPairs_of_retires hop
    | removeAllAppHosts appId generationId => exact keepsPairs_of_retires hop
    | setWorkspaceHostsSuspended workspaceId suspended =>
      cases suspended with
      | true =>
        obtain ⟨origin, -, time, -, rfl⟩ := hop
        exact fun _ ↦ ⟨rfl, rfl, rfl⟩
      | false =>
        obtain ⟨-, state, time, rfl | rfl⟩ := hop <;> exact fun _ ↦ ⟨rfl, rfl, rfl⟩
    | _ => exact hop.elim
  | deleteMany filter =>
    cases operation with
    | setDesiredHosts input => exact keepsPairs_of_retires hop
    | removeAllAppHosts appId generationId => exact keepsPairs_of_retires hop
    | setWorkspaceHostsSuspended workspaceId suspended => cases suspended <;> exact hop.elim
    | runOnce => cases hpass
    | _ => exact hop.elim

theorem recorded_iff_of_keepsPairs (hop : KeepsPairs op) (hostname id : String) :
    Recorded (Edge.respond (.system (.appHosts op)) x s).2.system hostname id ↔
      Recorded s.system hostname id := by
  constructor
  · rintro ⟨row, hrow, hkind, hname, hid⟩
    have hupdated : ∀ (update : AppHostRecord → AppHostRecord) before,
        before ∈ s.system.appHosts.docs → row = update before →
        ((update before).hostname = before.hostname ∧ (update before).kind = before.kind ∧
          (update before).cfHostnameId = before.cfHostnameId) →
        Recorded s.system hostname id := by
      rintro update before hbefore rfl ⟨hsame, hsameKind, hsameId⟩
      exact ⟨before, hbefore, hsameKind ▸ hkind, hsame ▸ hname, hsameId ▸ hid⟩
    obtain hbefore | hwritten := mem_serveBulk hrow
    · exact ⟨row, hbefore, hkind, hname, hid⟩
    · cases op with
      | one op =>
        cases op with
        | findOne | find => exact hwritten.elim
        | insertOne inserted =>
          obtain rfl : row = inserted := hwritten
          have hnone : row.cfHostnameId = none := hop
          exact nomatch hnone.symm.trans hid
        | updateOne filter update =>
          obtain ⟨before, hbefore, -, hrow⟩ := hwritten
          exact hupdated update before hbefore hrow (hop before)
        | upsertOne | insertMany | replaceOne => exact hop.elim
      | updateMany filter update =>
        obtain ⟨before, hbefore, -, hrow⟩ := hwritten
        exact hupdated update before hbefore hrow (hop before)
      | deleteMany filter => exact hwritten.elim
  · intro hrecorded
    have hcarries : op.Carries (fun _ ↦ True) fun row ↦ row.kind = .custom ∧
        row.hostname = hostname ∧ row.cfHostnameId = some id := by
      have hupdate : ∀ update : AppHostRecord → AppHostRecord, (∀ row,
          (update row).hostname = row.hostname ∧ (update row).kind = row.kind ∧
            (update row).cfHostnameId = row.cfHostnameId) → ∀ row : AppHostRecord,
          row.kind = .custom ∧ row.hostname = hostname ∧ row.cfHostnameId = some id →
            (update row).kind = .custom ∧ (update row).hostname = hostname ∧
              (update row).cfHostnameId = some id := by
        intro update hsame row hpair
        obtain ⟨hname, hkind, hid⟩ := hsame row
        rwa [hname, hkind, hid]
      cases op with
      | one op =>
        cases op with
        | findOne | find | insertOne => trivial
        | updateOne filter update => exact fun row _ hpair _ ↦ hupdate update hop row hpair
        | upsertOne | insertMany | replaceOne => exact hop.elim
      | updateMany filter update => exact fun row _ hpair _ ↦ hupdate update hop row hpair
      | deleteMany filter =>
        intro row _ hpair
        by_contra hmatch
        have hnone := hop row (by simpa using hmatch)
        exact nomatch hnone.symm.trans hpair.2.2
    exact serveBulk_applies (P := fun rows : Collection AppHostRecord appHostKeys ↦
      ∃ row ∈ rows.docs, row.kind = .custom ∧ row.hostname = hostname ∧ row.cfHostnameId = some id)
      op x.system hrecorded (Collection.exists_applyBulk hcarries (fun _ _ ↦ trivial) hrecorded)

theorem pendingAfter_system {c : SystemCall} {answer : Except JsError c.Answer} :
    pendingAfter none (.system c) answer = none := by
  unfold pendingAfter
  split <;> first | rfl | simp_all

/-- A call that keeps the pairs, while nothing is pending. -/
theorem does_of_keepsPairs (hop : KeepsPairs op) : Does none (.system (.appHosts op)) x s :=
  .idle ⟨recorded_iff_of_keepsPairs hop, rfl, rfl, pendingAfter_system⟩

/-- The requests to the registry leave the pairs alone. -/
theorem does_of_makes (hc : operation.Makes c) (hpass : operation.isPass = false) :
    Does none c x s := by
  cases c with
  | system c =>
    cases c with
    | appHosts op => exact does_of_keepsPairs (keepsPairs_of_writes hc hpass)
    | _ => exact .idle ⟨fun _ _ ↦ Iff.rfl, rfl, rfl, pendingAfter_system⟩
  | cloudflare request => exact nomatch hpass.symm.trans hc
  | sleep ms => exact .idle ⟨fun _ _ ↦ Iff.rfl, rfl, rfl, rfl⟩

/-- What an operation does among the passes. -/
abbrev Passing {α : Type} (operation : RegistryOperation) :=
  Among (α := α) (edge succeeds) (amongPasses operation)

theorem request_among {p : EdgeAction Unit} (hp : AsyncProgram.Asks operation.Makes p)
    (hpass : operation.isPass = false) :
    Passing operation (fun _ note _ ↦ note = none) p none s := by
  apply Among.keeps (I := fun note _ ↦ note = none) hp
  · exact fun _ _ _ _ hnone ↦ hnone
  · rintro _ c x s hc - - rfl
    have hdoes : Does none c x s := does_of_makes hc hpass
    refine ⟨hdoes, ?_⟩
    cases hdoes with
    | idle hidle => exact hidle.pending
    | creates | deletes => exact nomatch hpass.symm.trans hc
    | records time x hnote inStep => exact pendingAfter_system
  · rfl

end Requests

/-! ## Passes of the worker -/

section Passes

variable {operation : RegistryOperation} {α β : Type} {note : Option Pending} {s : Edge}
  {host : AppHostRecord}

theorem Named.stays {s' : Edge} {hostname id : String} (h : Named s hostname id)
    (hissued : s.issued ⊆ s'.issued) : Named s' hostname id := by
  obtain ⟨custom, hcustom, hpair⟩ := h
  exact ⟨custom, hissued hcustom, hpair⟩

/-- The end of an action whose calls succeed, from a state with these custom hostnames. -/
def Ends (s : Edge) (Q : α → Option Pending → Prop) :
    Except JsError α → Option Pending → Edge → Prop :=
  onExit (fun a note s' ↦ Q a note ∧ s.issued ⊆ s'.issued) fun _ _ _ ↦ False

theorem ends_bind {Q : α → Option Pending → Prop} {R : β → Option Pending → Prop}
    {p : EdgeAction α} {f : α → EdgeAction β}
    (hp : Passing operation (Ends s Q) p note s)
    (hf : ∀ a note' s', Q a note' → s.issued ⊆ s'.issued →
      Passing operation (Ends s' R) (f a) note' s') :
    Passing operation (Ends s R) (p >>= f) note s := by
  apply Among.bind hp
  · rintro a note' s' ⟨hQ, hissued⟩
    apply (hf a note' s' hQ hissued).imp
    intro r note'' s'' hr
    cases r with
    | ok b => exact ⟨hr.1, List.Subset.trans hissued hr.2⟩
    | error e => exact hr
  · exact fun _ _ _ h ↦ h.elim

/-- A call that does what is expected of the thread. -/
theorem ends_await {Q : c.Answer → Option Pending → Prop}
    (h : ∀ s' x, s.issued ⊆ s'.issued → succeeds c x s' → InStep s' operation c → Known s' →
      Does note c x s' ∧ ∃ answer, (Edge.respond c x s').1 = .ok answer ∧
        Q answer (pendingAfter note c (.ok answer))) :
    Passing operation (Ends s Q) (awaitEdge c) note s := by
  intro s' hrely x hx hassume
  obtain ⟨hdoes, answer, hanswer, hQ⟩ := h s' x hrely hx hassume.1 hassume.2
  refine ⟨hdoes, ?_⟩
  simp only [edge, hanswer]
  exact ⟨hQ, List.Subset.trans hrely (issued_subset c x s')⟩

theorem among_onEdge {c : SystemCall}
    {Q : Except JsError c.Answer → Option Pending → Edge → Prop}
    (h : Passing operation Q (awaitEdge (.system c)) note s) :
    Passing operation Q (onEdge (await c)) note s := by
  apply Among.bind (R := onExit (fun r ↦ Q r) fun _ _ _ ↦ False) h.settle
  · intro answer note' s' hanswer
    cases answer with
    | ok a => exact hanswer
    | error e => exact hanswer
  · exact fun _ _ _ h ↦ h.elim

theorem onEdge_bind (p : Action α) (f : α → Action β) :
    onEdge (p >>= f) = onEdge p >>= fun a ↦ onEdge (f a) :=
  Program.delegate_bind p f

/-- The note after a request to Cloudflare that succeeds. -/
def requested (note : Option Pending) : (request : CloudflareRequest) → request.Result → Option Pending
  | .list _, _ => note
  | .create hostname _, result => some (.created hostname result.id)
  | .delete id, _ => some (.deleted id)

/-- A request that succeeds is made once. -/
theorem ends_api {request : CloudflareRequest}
    (hdoes : ∀ x s', Does note (.cloudflare request) x s') :
    Passing operation
      (Ends s fun result note' ↦ note' = requested note request result) (api request) note s := by
  have hfetch : Passing operation
      (Ends s fun response note' ↦ (200 ≤ response.status ∧ response.status < 300) ∧
        ∃ result, resultOf response = .ok result ∧ note' = requested note request result)
      (awaitEdge (.cloudflare request)) note s := by
    apply ends_await
    intro s' x _ hx _ _
    have hsucceeds : x.cloudflare.Succeeds := by
      cases request with
      | create hostname tag => exact hx.1
      | list | delete => exact hx
    refine ⟨hdoes x s', _, congrArg Prod.fst (hsucceeds.respond request s'), hsucceeds.status,
      request.result x.cloudflare s'.customHostnames, ?_, ?_⟩
    · simp only [resultOf, hsucceeds.status, and_self, if_true]
    · cases request <;> rfl
  apply Among.bind (R := onExit (fun r ↦ Ends s (fun response note' ↦ (200 ≤ response.status ∧
    response.status < 300) ∧ ∃ result, resultOf response = .ok result ∧
      note' = requested note request result) r) fun _ _ _ ↦ False) hfetch.settle
  · intro fetched note' s' hfetched
    cases fetched with
    | ok response =>
      obtain ⟨⟨hstatus, result, hresult, hnote⟩, hissued⟩ := hfetched
      have hretry : ¬ (response.status = 429 ∨ 500 ≤ response.status) := by omega
      simp only [if_neg hretry, hresult]
      exact ⟨hnote, hissued⟩
    | error e => exact hfetched.elim
  · exact fun _ _ _ h ↦ h.elim

theorem ends_now :
    Passing operation (Ends s fun _ note' ↦ note' = note) (onEdge systemNow) note s := by
  apply ends_await
  intro s' x _ _ _ _
  exact ⟨.idle ⟨fun _ _ ↦ Iff.rfl, rfl, rfl, rfl⟩, _, rfl, rfl⟩

/-- An operation on the rows that takes effect, and leaves nothing pending. -/
theorem ends_write {op : BulkOperation AppHostRecord}
    (hop : (∃ filter update, op = .one (.updateOne filter update)) ∨ ∃ filter, op = .deleteMany filter)
    (hdoes : ∀ s' x, s.issued ⊆ s'.issued → InStep s' operation (.system (.appHosts op)) →
      Does note (.system (.appHosts op)) x s') :
    Passing operation (Ends s fun _ note' ↦ note' = none)
      (onEdge (await (.appHosts op))) note s := by
  apply among_onEdge
  apply ends_await
  intro s' x hissued hx hstep _
  refine ⟨hdoes s' x hissued hstep, ?_⟩
  have hpending : pendingAfter note (.system (.appHosts op))
      (Edge.respond (.system (.appHosts op)) x s').1 = none := pendingAfter_write hop hx
  have hok : (Edge.respond (.system (.appHosts op)) x s').1.isOk = true := hx
  cases hanswer : (Edge.respond (.system (.appHosts op)) x s').1 with
  | ok answer =>
    rw [hanswer] at hpending
    exact ⟨answer, rfl, hpending⟩
  | error e =>
    rw [hanswer] at hok
    cases hok

theorem ends_update {update : Time → AppHostRecord → AppHostRecord}
    (hdoes : ∀ time s' x, s.issued ⊆ s'.issued →
      InStep s' operation (.system (.appHosts (.one (.updateOne filter (update time))))) →
        Does note (.system (.appHosts (.one (.updateOne filter (update time))))) x s') :
    Passing operation (Ends s fun _ note' ↦ note' = none) (write filter update) note s := by
  unfold write
  rw [onEdge_bind]
  apply ends_bind ends_now
  rintro time _ s₁ rfl hissued
  rw [onEdge_bind]
  apply ends_bind
  · apply ends_write (.inl ⟨_, _, rfl⟩)
    exact fun s' x hmore ↦ hdoes time s' x (List.Subset.trans hissued hmore)
  · exact fun _ _ _ hnone _ ↦ ⟨hnone, List.Subset.refl _⟩

/-- A custom hostname is created or adopted, and recorded. -/
theorem register_among :
    Passing .runOnce (Ends s fun _ note' ↦ note' = none) (register host) none s := by
  have hrecord : ∀ (id : String) (note : Option Pending) (s : Edge),
      note = none ∨ note = some (.created host.hostname id) →
      Passing .runOnce (Ends s fun _ note' ↦ note' = none)
        (write (isOf host) (recordedAs host id)) note s := by
    intro id note s hnote
    apply ends_update
    exact fun time s' x _ hstep ↦ .records time x hnote (hstep host id time rfl rfl)
  have hidle : ∀ x s', Does none (.cloudflare (.list host.hostname)) x s' := by
    intro x s'
    have hsame : (Edge.respond (.cloudflare (.list host.hostname)) x s').2 = s' := by
      simp only [Edge.respond, CloudflareRequest.perform, ite_self]
    refine .idle ⟨?_, ?_, ?_, rfl⟩
    · intro hostname id
      rw [hsame]
    · rw [hsame]
    · rw [hsame]
  apply ends_bind (Q := fun _ note' ↦ note' = none)
  · apply ends_bind (ends_api hidle)
    exact fun _ _ _ hnone _ ↦ ⟨hnone, List.Subset.refl _⟩
  · rintro existing _ s₁ rfl _
    cases existing with
    | some existing =>
      dsimp only
      split
      · apply ends_bind (hrecord existing.id none s₁ (.inl rfl))
        exact fun _ _ _ hnone _ ↦ ⟨hnone, List.Subset.refl _⟩
      · apply ends_bind
        · apply ends_update
          exact fun time s' x _ _ ↦ does_of_keepsPairs fun _ ↦ ⟨rfl, rfl, rfl⟩
        · exact fun _ _ _ hnone _ ↦ ⟨hnone, List.Subset.refl _⟩
    | none =>
      apply ends_bind (ends_api fun x s' ↦ .creates host.hostname x s')
      rintro created _ s₂ rfl _
      apply ends_bind (hrecord created.id _ s₂ (.inr rfl))
      exact fun _ _ _ hnone _ ↦ ⟨hnone, List.Subset.refl _⟩

/-- Where all calls succeed, no handler is reached. -/
theorem ends_tryCatch {Q : α → Option Pending → Prop} {p : EdgeAction α}
    {handler : JsError → EdgeAction α}
    (hp : Passing operation (Ends s Q) p note s) :
    Passing operation (Ends s Q) (p.tryCatch handler) note s := by
  apply Among.tryCatch (E := fun _ _ _ ↦ False)
  · apply hp.imp
    intro r note' s' hr
    cases r with
    | ok a => exact hr
    | error e => exact hr
  · exact fun _ _ _ h ↦ h.elim

theorem create_among : Passing .runOnce (Ends s fun _ note' ↦ note' = none) (create host) none s :=
  ends_tryCatch register_among

/-- The row had this custom hostname when it was read. -/
def ReadWith (s : Edge) (host : AppHostRecord) (id : String) : Prop :=
  host.cfHostnameId = some id ∧ id ≠ "" ∧ Named s host.hostname id

theorem deleteRemote_among {id : String} (hread : ReadWith s host id) :
    Passing operation (Ends s fun _ note' ↦ note' = some (.deleted id))
      (deleteRemote host) none s := by
  have htruthy : truthy host.cfHostnameId = some id := by
    rw [hread.1]
    simp [truthy, hread.2.1]
  unfold deleteRemote
  rw [htruthy]
  apply ends_bind (ends_api fun x s' ↦ .deletes id x s')
  rintro _ _ s₁ rfl _
  exact ⟨rfl, List.Subset.refl _⟩

theorem delete_among {id : String} (hread : ReadWith s host id) :
    Passing .runOnce (Ends s fun _ note' ↦ note' = none) (delete host) none s := by
  apply ends_tryCatch
  apply ends_bind (deleteRemote_among hread)
  rintro _ _ s₁ rfl hissued
  apply ends_bind (Q := fun _ note' ↦ note' = none)
  · unfold deleteRow
    rw [onEdge_bind]
    apply ends_bind
    · apply ends_write (.inr ⟨_, rfl⟩)
      intro s' x hmore hstep
      exact .removes x (hread.2.2.stays (List.Subset.trans hissued hmore)) (hstep host rfl)
    · exact fun _ _ _ hnone _ ↦ ⟨hnone, List.Subset.refl _⟩
  · exact fun _ _ _ hnone _ ↦ ⟨hnone, List.Subset.refl _⟩

theorem release_among {id : String} (hread : ReadWith s host id) :
    Passing (.releaseSuspendedCfHostnames retentionDays)
      (Ends s fun _ note' ↦ note' = none) (release host) none s := by
  apply ends_tryCatch
  apply ends_bind (deleteRemote_among hread)
  rintro _ _ s₁ rfl hissued
  apply ends_bind
  · apply ends_update
    intro time s' x hmore hstep
    exact .releases time x (hread.2.2.stays (List.Subset.trans hissued hmore))
      (hstep host time rfl rfl)
  · exact fun _ _ _ hnone _ ↦ ⟨hnone, List.Subset.refl _⟩

/-- The rows that are found with a custom hostname have one of their hostname. -/
theorem findRecorded_among : Passing operation
      (onExit (fun hosts note' s' ↦ (note' = none ∧ ∀ host ∈ hosts, filter host = true ∧
        (host.kind = .custom → host.cfHostnameId.isSome = true → ∃ id, ReadWith s' host id)) ∧
          s.issued ⊆ s'.issued) fun _ _ _ ↦ False)
      (onEdge (AppHosts.find filter)) none s := by
  apply among_onEdge
  apply Among.ask
  intro s' hrely x hx hassume
  have hdoes : Does none (.system (.appHosts (.one (.find filter)))) x s' := does_of_keepsPairs trivial
  refine ⟨hdoes, ?_⟩
  have hok : (serveBulk (.one (.find filter)) x.system s'.system.appHosts).1.isOk = true := hx
  simp only [edge, Edge.respond, System.respond, serveBulk_one, serveStore_find] at hok ⊢
  split
  · refine ⟨⟨rfl, ?_⟩, hrely⟩
    intro host hhost
    obtain ⟨hstored, hfilter⟩ := mem_filter.mp hhost
    refine ⟨hfilter, ?_⟩
    intro hkind hsome
    obtain ⟨id, hid⟩ := Option.isSome_iff_exists.mp hsome
    have hknown := hassume.2 host.hostname id ⟨host, hstored, hkind, rfl, hid⟩
    exact ⟨id, hid, hknown.2, hknown.1⟩
  next hfault =>
    rw [if_neg hfault] at hok
    cases hok

/-- A loop over hosts that were read with their custom hostnames. -/
theorem ends_hosts {hosts : List AppHostRecord} {body : AppHostRecord → EdgeAction Bool}
    (hbody : ∀ host ∈ hosts, ∀ s', s.issued ⊆ s'.issued →
      Passing operation (Ends s' fun _ note' ↦ note' = none) (body host) none s') :
    Passing operation (Ends s fun _ note' ↦ note' = none) (Program.mapEach body hosts) none s := by
  apply Among.mapEach (I := fun (_ : List AppHostRecord) (note' : Option Pending) (s' : Edge) ↦
    note' = none ∧ s.issued ⊆ s'.issued)
  · rintro visited host rest _ s₁ hhosts ⟨rfl, hissued⟩
    apply (hbody host (by simp [hhosts]) s₁ hissued).imp
    intro r note' s' hr
    cases r with
    | ok b => exact ⟨hr.1, List.Subset.trans hissued hr.2⟩
    | error e => exact hr
  · exact ⟨rfl, List.Subset.refl _⟩

theorem ReadWith.stays {s' : Edge} {id : String} (h : ReadWith s host id)
    (hissued : s.issued ⊆ s'.issued) : ReadWith s' host id :=
  ⟨h.1, h.2.1, h.2.2.stays hissued⟩

/-- A pass leaves nothing pending. -/
theorem runOnce_among : Passing .runOnce (fun _ note' _ ↦ note' = none) (runOnce deps) none s := by
  unfold runOnce
  split
  · apply Among.bind findRecorded_among
    · rintro toCreate _ s₁ ⟨⟨rfl, -⟩, -⟩
      apply Among.bind findRecorded_among
      · rintro toDelete _ s₂ ⟨⟨rfl, hread⟩, -⟩
        have hloops : Passing .runOnce (Ends s₂ fun _ note' ↦ note' = none) (do
              let created ← Program.mapEach create toCreate
              let deleted ← Program.mapEach delete toDelete
              .pure (created.count true, deleted.count true) : EdgeAction (Nat × Nat)) none s₂ := by
          apply ends_bind (ends_hosts fun _ _ _ _ ↦ create_among)
          rintro created _ s₃ rfl hissued
          have hdelete : ∀ host ∈ toDelete, ∀ s', s₃.issued ⊆ s'.issued →
              Passing .runOnce (Ends s' fun _ note' ↦ note' = none) (delete host) none s' := by
            intro host hhost s' hmore
            obtain ⟨hfilter, hknown⟩ := hread host hhost
            simp only [isToDelete, Bool.and_eq_true, beq_iff_eq] at hfilter
            obtain ⟨id, hid⟩ := hknown hfilter.1.1 hfilter.2
            exact delete_among (hid.stays (List.Subset.trans hissued hmore))
          apply ends_bind (ends_hosts hdelete)
          exact fun _ _ _ hnone _ ↦ ⟨hnone, List.Subset.refl _⟩
        apply hloops.imp
        intro r note' s' hr
        cases r with
        | ok counts => exact hr.1
        | error e => exact hr.elim
      · exact fun _ _ _ h ↦ h.elim
    · exact fun _ _ _ h ↦ h.elim
  · rfl

theorem releaseSuspendedCfHostnames_among : Passing (.releaseSuspendedCfHostnames retentionDays)
      (fun _ note' _ ↦ note' = none) (releaseSuspendedCfHostnames deps retentionDays) none s := by
  unfold releaseSuspendedCfHostnames
  split
  · apply Among.bind ends_now
    · rintro now _ s₁ ⟨rfl, -⟩
      apply Among.bind findRecorded_among
      · rintro candidates _ s₂ ⟨⟨rfl, hread⟩, -⟩
        have hrelease : ∀ host ∈ candidates, ∀ s', s₂.issued ⊆ s'.issued →
            Passing (.releaseSuspendedCfHostnames retentionDays)
              (Ends s' fun _ note' ↦ note' = none) (release host) none s' := by
          intro host hhost s' hmore
          obtain ⟨hfilter, hknown⟩ := hread host hhost
          simp only [isPastRetention, Bool.and_eq_true, beq_iff_eq] at hfilter
          obtain ⟨id, hid⟩ := hknown hfilter.1.1.2 hfilter.1.2
          exact release_among (hid.stays hmore)
        apply Among.bind (ends_hosts hrelease)
        · exact fun _ _ _ h ↦ h.1
        · exact fun _ _ _ h ↦ h.elim
      · exact fun _ _ _ h ↦ h.elim
    · exact fun _ _ _ h ↦ h.elim
  · rfl

end Passes

/-! ## Runs -/

section Runs

/-- An operation leaves nothing pending, however it ends. -/
theorem RegistryOperation.program_pending (deps : EdgeDeps) (operation : RegistryOperation)
    (s : Edge) :
    Passing operation (fun _ note _ ↦ note = none) (operation.program deps) none s := by
  cases operation with
  | runOnce =>
    apply runOnce_among.bind
    · exact fun _ _ _ hnone ↦ hnone
    · exact fun _ _ _ hnone ↦ hnone
  | releaseSuspendedCfHostnames retentionDays =>
    apply releaseSuspendedCfHostnames_among.bind
    · exact fun _ _ _ hnone ↦ hnone
    · exact fun _ _ _ hnone ↦ hnone
  | _ => exact request_among (RegistryOperation.program_asks deps _) rfl

/--
Rows and custom hostnames agree, and the custom hostnames are among those ever created, which all
have ids of their own.
-/
structure Settled (s : Edge) : Prop where
  agrees : Agrees s
  issued : s.customHostnames ⊆ s.issued
  apart : (s.issued.map (·.id)).Nodup
  nonempty : ∀ custom ∈ s.issued, custom.id ≠ ""

theorem Settled.reconciled {ι : Type} {s : Edge} (h : Settled s) :
    Reconciled (fun _ : ι ↦ none) s where
  tagged hostname id hT := .inl ((h.agrees hostname id).mp hT)
  recorded hostname id hR := .inl ((h.agrees hostname id).mpr hR)
  named hostname id hR := ((h.agrees hostname id).mpr hR).named h.issued
  issued := h.issued
  apart := h.apart
  nonempty := h.nonempty

/-- The thread has returned or thrown. -/
def HasEnded (p : EdgeAction Unit) : Prop := p = .pure () ∨ ∃ e, p = .throw e

/--
When nothing is in progress any more, the tagged custom hostnames at Cloudflare are those that the
CUSTOM rows record, provided that every write of the worker found the row as the worker had read it.
-/
theorem hostnames_agree {ι : Type} [DecidableEq ι] (deps : EdgeDeps) (tasks : ι → RegistryOperation)
    (s : Edge) (hstart : Settled s) (events : List (Event edgeSignature EdgeChoice ι))
    (pool : Pool edgeSignature JsError Edge ι)
    (run : Pool.Run (edge succeeds) (RegistryOperation.pool deps tasks s) events pool)
    (hstep : ∀ before e after pool₁, events = before ++ e :: after →
      Pool.Run (edge succeeds) (RegistryOperation.pool deps tasks s) before pool₁ →
        InStep pool₁.state (tasks e.thread) e.call)
    (hended : ∀ i, HasEnded (pool.threads i)) :
    Agrees pool.state := by
  have hstands : (RegistryOperation.pool deps tasks s).Stands (edge succeeds)
      (fun i ↦ amongPasses (tasks i)) (fun _ _ note _ ↦ note = none) Reconciled fun _ ↦ none :=
    ⟨fun i ↦ (tasks i).program_pending deps s, hstart.reconciled⟩
  have hassume : ∀ before e after pool₁ (notes : ι → Option Pending),
      events = before ++ e :: after →
      Pool.Run (edge succeeds) (RegistryOperation.pool deps tasks s) before pool₁ →
        Reconciled notes pool₁.state →
          (amongPasses (tasks e.thread)).assumes e.call e.choice pool₁.state :=
    fun before e after pool₁ _ hsplit hrun hjoint ↦
      ⟨hstep before e after pool₁ hsplit hrun, hjoint.known⟩
  obtain ⟨notes, hends⟩ := run.together passes_team hassume hstands
  have hnone : ∀ i P, notes i ≠ some P := by
    intro i P hpending
    have hend := hends.threads i
    rcases hended i with hpure | ⟨e, hthrow⟩
    · rw [hpure] at hend
      exact nomatch hpending.symm.trans hend
    · rw [hthrow] at hend
      exact nomatch hpending.symm.trans hend
  intro hostname id
  constructor
  · intro hT
    rcases hends.joint.tagged hostname id hT with hR | ⟨i, hi⟩
    · exact hR
    · exact absurd hi (hnone i _)
  · intro hR
    rcases hends.joint.recorded hostname id hR with hT | ⟨i, hi⟩
    · exact hT
    · exact absurd hi (hnone i _)

namespace Sample

instance (x : CloudflareChoice) : Decidable x.Succeeds :=
  decidable_of_iff (x.performed = true ∧ x.answered = true ∧ x.readable = true ∧ x.success = true ∧
    (200 ≤ x.status ∧ x.status < 300) ∧ x.listed = none)
    ⟨fun ⟨h₁, h₂, h₃, h₄, h₅, h₆⟩ ↦ ⟨h₁, h₂, h₃, h₄, h₅, h₆⟩,
      fun h ↦ ⟨h.performed, h.answered, h.readable, h.success, h.status, h.listed⟩⟩

instance (s : Edge) (id : String) : Decidable (NewId s id) :=
  inferInstanceAs (Decidable (id ≠ "" ∧ ∀ custom ∈ s.issued, custom.id ≠ id))

instance (c : EdgeCall) (x : EdgeChoice) (s : Edge) : Decidable ((edge succeeds).permits c x s) :=
  match c with
  | .system (.appHosts op) =>
    inferInstanceAs (Decidable ((serveBulk op x.system s.system.appHosts).1.isOk = true))
  | .cloudflare (.create _ _) =>
    inferInstanceAs (Decidable (x.cloudflare.Succeeds ∧ NewId s x.cloudflare.newId))
  | .cloudflare (.list _) | .cloudflare (.delete _) =>
    inferInstanceAs (Decidable x.cloudflare.Succeeds)
  | .system (.master _) | .system (.hostLabels _) | .system .randomBytes | .system .notify
  | .sleep _ => .isTrue trivial

/-- A pass that finds nothing to do, while the workspace is suspended. -/
def suspensionTasks (i : Fin 2) : RegistryOperation :=
  if i = 0 then .runOnce else .setWorkspaceHostsSuspended "acme" true

/-- A pass that finds a new host, which is removed before it is recorded. -/
def removalTasks (i : Fin 2) : RegistryOperation :=
  if i = 0 then .runOnce else .removeAllAppHosts "notes" none

def newHost : Edge where
  system := { vacant with
    appHosts := ⟨[{ customRow with state := .pending, cfHostnameId := none }], by decide⟩ }
  customHostnames := []
  issued := []

def passed (tasks : Fin 2 → RegistryOperation) (s : Edge) (schedule : List (Fin 2)) :
    List (Event edgeSignature EdgeChoice (Fin 2)) × Pool edgeSignature JsError Edge (Fin 2) :=
  Pool.play (edge succeeds) (fun _ _ ↦ { cloudflare := { newId := "cf-1" } }) schedule
    (RegistryOperation.pool edgeDeps tasks s)

def isFind : EdgeCall → Bool
  | .system (.appHosts (.one (.find _))) => true
  | _ => false

theorem inService_settled : Settled inService where
  agrees hostname id := by
    constructor
    · rintro ⟨custom, hcustom, rfl, rfl, -⟩
      obtain rfl := mem_singleton.mp hcustom
      exact ⟨customRow, mem_singleton_self _, rfl, rfl, rfl⟩
    · rintro ⟨row, hrow, -, rfl, hid⟩
      obtain rfl := mem_singleton.mp hrow
      obtain rfl := some.inj hid
      exact ⟨_, mem_singleton_self _, rfl, rfl, rfl⟩
  issued := List.Subset.refl _
  apart := by decide
  nonempty := by decide

theorem newHost_settled : Settled newHost where
  agrees hostname id := by
    constructor
    · rintro ⟨custom, hcustom, -⟩
      cases hcustom
    · rintro ⟨row, hrow, -, -, hid⟩
      obtain rfl := mem_singleton.mp hrow
      cases hid
  issued := List.Subset.refl _
  apart := by decide
  nonempty := by decide

theorem inStep_of_isFind {s : Edge} {operation : RegistryOperation} (h : isFind c = true) :
    InStep s operation c := by
  unfold isFind at h
  split at h
  · cases operation <;> trivial
  · cases h

end Sample

/-- A pass beside a suspension. -/
theorem hostnames_agree_suspension :
    let ended := Sample.passed Sample.suspensionTasks Sample.inService [0, 1, 1, 0, 1, 1, 1]
    ended.1.length = 7 ∧ Agrees ended.2.state := by
  intro ended
  refine ⟨by decide +kernel, ?_⟩
  have hreturned : ∀ i, Sample.hasReturned (ended.2.threads i) = true := by decide +kernel
  have hfinds : ∀ e ∈ ended.1, e.thread = 0 → Sample.isFind e.call = true := by decide +kernel
  apply hostnames_agree Sample.edgeDeps Sample.suspensionTasks Sample.inService
    Sample.inService_settled ended.1 ended.2 (Pool.run_play _ _ _)
  · intro before e after pool₁ hsplit _
    have he : e ∈ ended.1 := by
      rw [hsplit]
      exact mem_append_right _ mem_cons_self
    by_cases hthread : e.thread = 0
    · exact Sample.inStep_of_isFind (hfinds e he hthread)
    · unfold Sample.suspensionTasks
      rw [if_neg hthread]
      trivial
  · exact fun i ↦ .inl (Sample.eq_pure_of_hasReturned (hreturned i))

/-- A host that is removed between its creation at Cloudflare and its record leaves the custom
hostname behind, and no further pass finds anything to do. -/
theorem hostname_left_behind :
    let ended := Sample.passed Sample.removalTasks Sample.newHost
      [0, 0, 0, 0, 1, 1, 1, 1, 1, 0, 0]
    Settled Sample.newHost ∧
      Pool.Run (edge succeeds)
        (RegistryOperation.pool Sample.edgeDeps Sample.removalTasks Sample.newHost) ended.1 ended.2 ∧
      (∀ i, HasEnded (ended.2.threads i)) ∧
      (∀ row ∈ ended.2.state.system.appHosts.docs, isToCreate row = false ∧ isToDelete row = false) ∧
      ¬ Agrees ended.2.state := by
  intro ended
  have hreturned : ∀ i, Sample.hasReturned (ended.2.threads i) = true := by decide +kernel
  refine ⟨Sample.newHost_settled, Pool.run_play _ _ _, ?_, ?_, ?_⟩
  · exact fun i ↦ .inl (Sample.eq_pure_of_hasReturned (hreturned i))
  · exact fun _ hrow ↦ nomatch hrow
  · intro hagrees
    have htagged : Tagged ended.2.state "notes.acme.test" "cf-1" := by
      exact ⟨_, mem_singleton_self _, rfl, rfl, rfl⟩
    obtain ⟨row, hrow, -⟩ := (hagrees "notes.acme.test" "cf-1").mp htagged
    cases hrow

end Runs

end PrivosCluster.Routing
