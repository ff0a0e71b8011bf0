import PrivosCluster.Routing.TableAgreement
import PrivosCluster.Transitions.Runs

/-!
# Dirty marks and publishing passes

A publisher that is marked dirty takes a revision, reads a snapshot and pushes it until every node
has taken it or a newer mark has come. Marks come at any time. One pass runs at a time; a mark that
comes during a pass is remembered for the next one. The revision and the reads may be refused.
-/

namespace PrivosCluster.Routing

/-- A table for one node. -/
inductive TablePush where
  | runtime (node : FleetNode) (body : RuntimeTableBody)
  | ingress (node : FleetNode) (body : IngressTableBody)

inductive PushStage where
  | runtime
  | ingress

/-- What a pass sends in a stage. -/
def Publication.pushes (pass : Publication) : PushStage → List TablePush
  | .runtime => pass.snapshot.runtimeNodes.map fun node ↦ .runtime node (pass.runtimeBody node)
  | .ingress => pass.snapshot.ingressNodes.map fun node ↦ .ingress node pass.ingressBody

def baseBackoffMs : Nat := 3000

def maxBackoffMs : Nat := 5 * 60 * 1000

/-- How long the publisher sleeps after a failed attempt. -/
def backoff (attempt : Nat) : Nat := min maxBackoffMs (baseBackoffMs * 2 ^ attempt)

namespace HostTablePublisher

/-- Where `pump` is suspended: `waiting` are the pushes of the stage that have not settled, and
`failed` counts the rejected ones of the attempt. -/
inductive Pump where
  | idle
  | nextRevision
  | buildSnapshot (revision : Int)
  | pushSnapshot (pass : Publication) (attempt : Nat) (stage : PushStage) (waiting : List TablePush)
      (failed : Nat)
  | sleep (pass : Publication) (attempt : Nat) (ms : Nat)

/-- What happened so far. Passes are numbered in the order in which they began. -/
inductive Entry where
  | marked
  | began (pass : Nat)
  | built (pass : Nat) (publication : Publication)
  | delivered (pass : Nat) (push : TablePush)

end HostTablePublisher

open HostTablePublisher List Option

/-- The publisher of one process; `passes` and `log` only record what happened. -/
structure HostTablePublisher where
  dirty : Bool := false
  pump : Pump := .idle
  passes : Nat := 0
  log : List Entry := []

variable {entries : List Entry} {pass : Publication} {events : List Event}

namespace HostTablePublisher

inductive Event where
  | markDirty
  | revisionTaken (revision : Option Int)
  | revisionRefused
  | snapshotRead (apps : List MasterApp) (nodes : List FleetNode) (hosts : List AppHostRecord)
  | snapshotRefused
  | answered (index : Nat) (status : Option Nat)
  | settled
  | woken

/-- The call of `nextRevision` or one of the three queries is rejected. -/
def Event.Refuses : Event → Prop
  | .revisionRefused => True
  | .snapshotRefused => True
  | _ => False

def pumping (s : HostTablePublisher) : Bool :=
  match s.pump with
  | .idle => false
  | _ => true

/-- The mark is cleared before the pass takes its revision. -/
def beginPass (s : HostTablePublisher) : HostTablePublisher where
  dirty := false
  pump := .nextRevision
  passes := s.passes + 1
  log := s.log ++ [.began (s.passes + 1)]

/-- The condition of the loop of `pump`, and what follows the loop. -/
def loop (s : HostTablePublisher) : HostTablePublisher :=
  if s.dirty then s.beginPass else { s with pump := .idle }

/-- `pump` returns at once while another call of it is running. -/
def markDirty (s : HostTablePublisher) : HostTablePublisher :=
  let s := { s with dirty := true, log := s.log ++ [.marked] }
  if s.pumping then s else s.loop

/-- A request that is rejected has no status. -/
def isDelivered (status : Option Nat) : Bool := status.any (· < 300)

variable (bootTimestamp : Int) (baseDomain : String)

/-- A rejection leaves `publishWithRetry` and the loop of `pump`; a mark that comes before the flag
`pumping` is reset has come before the rejection. -/
def step (s : HostTablePublisher) : Event → Option HostTablePublisher
  | .markDirty => some s.markDirty
  | .revisionTaken revision =>
    match s.pump with
    | .nextRevision => some { s with pump := .buildSnapshot (revision.getD 1) }
    | _ => none
  | .revisionRefused =>
    match s.pump with
    | .nextRevision => some { s with pump := .idle }
    | _ => none
  | .snapshotRead apps nodes hosts =>
    match s.pump with
    | .buildSnapshot revision =>
      let pass : Publication :=
        { bootTimestamp, revision, snapshot := buildSnapshot baseDomain (apps.filter appsQuery)
            (nodes.filter nodesQuery) (hosts.filter hostsQuery) }
      some { s with
        pump := .pushSnapshot pass 0 .runtime (pass.pushes .runtime) 0
        log := s.log ++ [.built s.passes pass] }
    | _ => none
  | .snapshotRefused =>
    match s.pump with
    | .buildSnapshot _ => some { s with pump := .idle }
    | _ => none
  | .answered index status =>
    match s.pump with
    | .pushSnapshot pass attempt stage waiting failed =>
      waiting[index]?.map fun push ↦
        if isDelivered status then
          { s with
            pump := .pushSnapshot pass attempt stage (waiting.eraseIdx index) failed
            log := s.log ++ [.delivered s.passes push] }
        else
          { s with pump := .pushSnapshot pass attempt stage (waiting.eraseIdx index) (failed + 1) }
    | _ => none
  | .settled =>
    match s.pump with
    | .pushSnapshot pass attempt .runtime [] failed =>
      some { s with pump := .pushSnapshot pass attempt .ingress (pass.pushes .ingress) failed }
    | .pushSnapshot pass attempt .ingress [] failed =>
      -- A failed attempt is abandoned when a newer mark has come.
      if failed = 0 ∨ s.dirty = true then some s.loop
      else some { s with pump := .sleep pass attempt (backoff attempt) }
    | _ => none
  | .woken =>
    match s.pump with
    | .sleep pass attempt _ =>
      some { s with pump := .pushSnapshot pass (attempt + 1) .runtime (pass.pushes .runtime) 0 }
    | _ => none

/-- How an event changes the publisher. -/
inductive Effect (s : HostTablePublisher) : Event → HostTablePublisher → Prop where
  | markDirty : Effect s .markDirty s.markDirty
  | revisionTaken (revision : Option Int) (h : s.pump = .nextRevision) :
      Effect s (.revisionTaken revision) { s with pump := .buildSnapshot (revision.getD 1) }
  | refused (event : Event) (hevent : event.Refuses)
      (h : s.pump = .nextRevision ∨ ∃ revision, s.pump = .buildSnapshot revision) :
      Effect s event { s with pump := .idle }
  | snapshotRead {apps : List MasterApp} {nodes : List FleetNode} {hosts : List AppHostRecord}
      (revision : Int) (pass : Publication) (h : s.pump = .buildSnapshot revision) :
      Effect s (.snapshotRead apps nodes hosts) { s with
        pump := .pushSnapshot pass 0 .runtime (pass.pushes .runtime) 0
        log := s.log ++ [.built s.passes pass] }
  | delivered {index : Nat} {status : Option Nat} {pass : Publication} {attempt : Nat}
      {stage : PushStage} {waiting : List TablePush} {failed : Nat} (push : TablePush)
      (h : s.pump = .pushSnapshot pass attempt stage waiting failed)
      (hpush : waiting[index]? = some push) :
      Effect s (.answered index status) { s with
        pump := .pushSnapshot pass attempt stage (waiting.eraseIdx index) failed
        log := s.log ++ [.delivered s.passes push] }
  | failed {index : Nat} {status : Option Nat} {pass : Publication} {attempt : Nat}
      {stage : PushStage} {waiting : List TablePush} {failed : Nat}
      (h : s.pump = .pushSnapshot pass attempt stage waiting failed) :
      Effect s (.answered index status) { s with
        pump := .pushSnapshot pass attempt stage (waiting.eraseIdx index) (failed + 1) }
  | stage {pass : Publication} {attempt failed : Nat}
      (h : s.pump = .pushSnapshot pass attempt .runtime [] failed) :
      Effect s .settled
        { s with pump := .pushSnapshot pass attempt .ingress (pass.pushes .ingress) failed }
  | finished {pass : Publication} {attempt failed : Nat}
      (h : s.pump = .pushSnapshot pass attempt .ingress [] failed)
      (hfailed : failed = 0 ∨ s.dirty = true) : Effect s .settled s.loop
  | sleep {pass : Publication} {attempt failed : Nat}
      (h : s.pump = .pushSnapshot pass attempt .ingress [] failed) :
      Effect s .settled { s with pump := .sleep pass attempt (backoff attempt) }
  | woken {pass : Publication} {attempt ms : Nat} (h : s.pump = .sleep pass attempt ms) :
      Effect s .woken
        { s with pump := .pushSnapshot pass (attempt + 1) .runtime (pass.pushes .runtime) 0 }

section Steps

variable {bootTimestamp : Int} {baseDomain : String} {s s' : HostTablePublisher} {event : Event}

theorem step_effect (h : step bootTimestamp baseDomain s event = some s') : Effect s event s' := by
  cases event with
  | markDirty =>
    rw [← some.inj h]
    exact .markDirty
  | revisionTaken revision =>
    unfold step at h
    dsimp only at h
    split at h
    next hpump =>
      rw [← some.inj h]
      exact .revisionTaken revision hpump
    next => cases h
  | revisionRefused =>
    unfold step at h
    dsimp only at h
    split at h
    next hpump =>
      rw [← some.inj h]
      exact .refused _ trivial (.inl hpump)
    next => cases h
  | snapshotRead apps nodes hosts =>
    unfold step at h
    dsimp only at h
    split at h
    next revision hpump =>
      rw [← some.inj h]
      exact .snapshotRead revision _ hpump
    next => cases h
  | snapshotRefused =>
    unfold step at h
    dsimp only at h
    split at h
    next revision hpump =>
      rw [← some.inj h]
      exact .refused _ trivial (.inr ⟨revision, hpump⟩)
    next => cases h
  | answered index status =>
    unfold step at h
    dsimp only at h
    split at h
    next hpump =>
      obtain ⟨push, hpush, hs'⟩ := Option.map_eq_some_iff.mp h
      split at hs'
      next =>
        rw [← hs']
        exact .delivered push hpump hpush
      next =>
        rw [← hs']
        exact .failed hpump
    next => cases h
  | settled =>
    unfold step at h
    dsimp only at h
    split at h
    next hpump =>
      rw [← some.inj h]
      exact .stage hpump
    next hpump =>
      split at h
      next hfailed =>
        rw [← some.inj h]
        exact .finished hpump hfailed
      next =>
        rw [← some.inj h]
        exact .sleep hpump
    next => cases h
  | woken =>
    unfold step at h
    dsimp only at h
    split at h
    next hpump =>
      rw [← some.inj h]
      exact .woken hpump
    next => cases h

end Steps

/-! ## Covered marks -/

/-- The pass has built a snapshot and every node of the snapshot has taken its table of the pass. -/
def Delivers (pass : Nat) (entries : List Entry) : Prop :=
  ∃ publication : Publication, .built pass publication ∈ entries ∧
    (∀ node ∈ publication.snapshot.runtimeNodes,
      .delivered pass (.runtime node (publication.runtimeBody node)) ∈ entries) ∧
    ∀ node ∈ publication.snapshot.ingressNodes,
      .delivered pass (.ingress node publication.ingressBody) ∈ entries

/-- Some pass that begins among these entries then delivers its snapshot. -/
def Covers (after : List Entry) : Prop :=
  ∃ between pass later, after = between ++ .began pass :: later ∧ Delivers pass later

/-- Every mark is covered by what came after it. -/
def Covered (log : List Entry) : Prop :=
  ∀ before after, log = before ++ .marked :: after → Covers after

/-- All that a pass has sent by the end of a stage. -/
def due (pass : Publication) : PushStage → List TablePush
  | .runtime => pass.pushes .runtime
  | .ingress => pass.pushes .runtime ++ pass.pushes .ingress

/-- How far the pass under way has come, as the entries after its beginning tell. -/
def Underway (s : HostTablePublisher) (later : List Entry) : Prop :=
  match s.pump with
  | .idle => False
  | .nextRevision => True
  | .buildSnapshot _ => True
  | .pushSnapshot pass _ stage waiting failed =>
    .built s.passes pass ∈ later ∧ (failed = 0 →
      ∀ push ∈ due pass stage, push ∈ waiting ∨ .delivered s.passes push ∈ later)
  | .sleep pass _ _ => .built s.passes pass ∈ later

/-- A mark that these entries follow is covered, waits for the next pass, or has the pass under
way after it. -/
def Kept (s : HostTablePublisher) (after : List Entry) : Prop :=
  Covers after ∨ (s.dirty = true ∧ s.pumping = true) ∨
    ∃ between later, after = between ++ .began s.passes :: later ∧ s.Underway later

/-- No mark is lost so far. -/
def KeepsMarks (s : HostTablePublisher) : Prop :=
  ∀ before after, s.log = before ++ .marked :: after → s.Kept after

theorem Delivers.mono {pass : Nat} {entries' : List Entry} (h : Delivers pass entries)
    (hsub : ∀ entry ∈ entries, entry ∈ entries') : Delivers pass entries' := by
  obtain ⟨publication, hbuilt, hruntime, hingress⟩ := h
  exact ⟨publication, hsub _ hbuilt, fun node hnode ↦ hsub _ (hruntime node hnode),
    fun node hnode ↦ hsub _ (hingress node hnode)⟩

theorem Covers.append {after : List Entry} (h : Covers after) (added : List Entry) :
    Covers (after ++ added) := by
  obtain ⟨between, pass, later, rfl, hdelivers⟩ := h
  apply Exists.intro between
  refine ⟨pass, later ++ added, by simp, hdelivers.mono ?_⟩
  intro entry hentry
  exact mem_append_left _ hentry

/-- A pass of which every push was taken has delivered its snapshot. -/
theorem delivers_of_due {n : Nat} (hbuilt : .built n pass ∈ entries)
    (hdue : ∀ push ∈ due pass .ingress, .delivered n push ∈ entries) : Delivers n entries := by
  apply Exists.intro pass
  refine ⟨hbuilt, ?_, ?_⟩
  · intro node hnode
    exact hdue _ (mem_append_left _ (List.mem_map_of_mem hnode))
  · intro node hnode
    exact hdue _ (mem_append_right _ (List.mem_map_of_mem hnode))

/-- What one entry of a list leaves of it. -/
theorem mem_eraseIdx_or {α : Type} {l : List α} {index : Nat} {a b : α} (hb : b ∈ l)
    (ha : l[index]? = some a) : b ∈ l.eraseIdx index ∨ b = a := by
  obtain ⟨i, hi, rfl⟩ := mem_iff_getElem.mp hb
  by_cases heq : i = index
  · subst heq
    rw [getElem?_eq_getElem hi] at ha
    exact .inr (some.inj ha)
  · exact .inl (mem_eraseIdx_iff_getElem.mpr ⟨i, hi, heq, rfl⟩)

section Marks

variable {s s' : HostTablePublisher} {added : List Entry}

/-- Entries other than marks are added, and what kept a mark before still does. -/
theorem KeepsMarks.extend (h : s.KeepsMarks) (hlog : s'.log = s.log ++ added)
    (hnew : .marked ∉ added) (hkept : ∀ after, s.Kept after → s'.Kept (after ++ added)) :
    s'.KeepsMarks := by
  intro before after hsplit
  rw [hlog] at hsplit
  obtain ⟨between, rfl, hearlier⟩ | ⟨between, hadded, -⟩ := Transitions.append_eq_split hsplit
  · exact hkept between (h before between hearlier)
  · rw [hadded] at hnew
    exact absurd (mem_append_right _ mem_cons_self) hnew

/-- The pass under way goes on. -/
theorem KeepsMarks.advance (h : s.KeepsMarks) (hlog : s'.log = s.log ++ added)
    (hnew : .marked ∉ added) (hdirty : s'.dirty = s.dirty) (hpumping : s'.pumping = true)
    (hpasses : s'.passes = s.passes)
    (hunderway : ∀ later, s.Underway later → s'.Underway (later ++ added)) : s'.KeepsMarks := by
  apply h.extend hlog hnew
  intro after hafter
  obtain hcovers | hwaits | ⟨between, later, rfl, hlater⟩ := hafter
  · exact .inl (hcovers.append added)
  · exact .inr (.inl ⟨hdirty.trans hwaits.1, hpumping⟩)
  · apply Or.inr
    apply Or.inr
    refine ⟨between, later ++ added, ?_, hunderway later hlater⟩
    rw [hpasses, append_assoc, cons_append]

/-- With the beginning of a pass every earlier mark has the pass under way after it. -/
theorem kept_beginPass (s : HostTablePublisher) (after : List Entry) :
    s.beginPass.Kept (after ++ [.began (s.passes + 1)]) :=
  .inr (.inr ⟨after, [], rfl, trivial⟩)

theorem keepsMarks_markDirty (s : HostTablePublisher) : s.markDirty.KeepsMarks := by
  unfold HostTablePublisher.markDirty
  dsimp only
  split
  next hpumping =>
    intro before after _
    exact .inr (.inl ⟨rfl, hpumping⟩)
  next =>
    intro before after hsplit
    have hlog : (s.log ++ [.marked]) ++ [.began (s.passes + 1)] = before ++ .marked :: after := hsplit
    obtain ⟨between, rfl, -⟩ | ⟨between, hadded, -⟩ := Transitions.append_eq_split hlog
    · exact kept_beginPass _ between
    · have hmem : Entry.marked ∈ [Entry.began (s.passes + 1)] := by
        rw [hadded]
        exact mem_append_right _ mem_cons_self
      exact nomatch mem_singleton.mp hmem

/-- After a pass of which no push failed, or that was abandoned for a newer mark. -/
theorem KeepsMarks.finished {attempt failed : Nat} (h : s.KeepsMarks)
    (hpump : s.pump = .pushSnapshot pass attempt .ingress [] failed)
    (hfailed : failed = 0 ∨ s.dirty = true) : s.loop.KeepsMarks := by
  unfold loop
  split
  next =>
    apply h.extend rfl (by simp)
    intro after _
    exact kept_beginPass s after
  next hclean =>
    intro before after hsplit
    obtain hcovers | hwaits | ⟨between, later, hafter, hlater⟩ := h before after hsplit
    · exact .inl hcovers
    · exact absurd hwaits.1 hclean
    · unfold Underway at hlater
      rw [hpump] at hlater
      have hnone := hlater.2 (hfailed.resolve_right hclean)
      have hdelivers : Delivers s.passes later := delivers_of_due hlater.1 fun push hpush ↦
        (hnone push hpush).resolve_left not_mem_nil
      exact .inl ⟨between, s.passes, later, hafter, hdelivers⟩

theorem KeepsMarks.step {event : Event} (h : s.KeepsMarks) (hevent : ¬ event.Refuses)
    (heffect : Effect s event s') : s'.KeepsMarks := by
  cases heffect with
  | markDirty => exact keepsMarks_markDirty s
  | revisionTaken revision hpump =>
    exact h.advance (append_nil _).symm not_mem_nil rfl rfl rfl fun _ _ ↦ trivial
  | refused _ hrefuses => exact absurd hrefuses hevent
  | snapshotRead revision pass hpump =>
    refine h.advance rfl (by simp) rfl rfl rfl ?_
    intro later _
    refine ⟨mem_append_right _ mem_cons_self, ?_⟩
    intro _ push hpush
    exact .inl hpush
  | @delivered index status pass attempt stage waiting failed push hpump hpush =>
    refine h.advance rfl (by simp) rfl rfl rfl ?_
    intro later hlater
    unfold Underway at hlater
    rw [hpump] at hlater
    refine ⟨mem_append_left _ hlater.1, ?_⟩
    intro hfailed other hother
    cases hlater.2 hfailed other hother with
    | inr hdelivered => exact .inr (mem_append_left _ hdelivered)
    | inl hwaiting =>
      obtain hrest | rfl := mem_eraseIdx_or hwaiting hpush
      · exact .inl hrest
      · exact .inr (mem_append_right _ mem_cons_self)
  | failed hpump =>
    refine h.advance (append_nil _).symm not_mem_nil rfl rfl rfl ?_
    intro later hlater
    unfold Underway at hlater
    rw [hpump] at hlater
    rw [append_nil]
    exact ⟨hlater.1, fun hfailed ↦ nomatch hfailed⟩
  | @stage pass attempt failed hpump =>
    refine h.advance (append_nil _).symm not_mem_nil rfl rfl rfl ?_
    intro later hlater
    unfold Underway at hlater
    rw [hpump] at hlater
    rw [append_nil]
    refine ⟨hlater.1, ?_⟩
    intro hfailed push hpush
    obtain hruntime | hingress := mem_append.mp hpush
    · exact .inr ((hlater.2 hfailed push hruntime).resolve_left not_mem_nil)
    · exact .inl hingress
  | finished hpump hfailed => exact h.finished hpump hfailed
  | sleep hpump =>
    refine h.advance (append_nil _).symm not_mem_nil rfl rfl rfl ?_
    intro later hlater
    unfold Underway at hlater
    rw [hpump] at hlater
    rw [append_nil]
    exact hlater.1
  | woken hpump =>
    refine h.advance (append_nil _).symm not_mem_nil rfl rfl rfl ?_
    intro later hlater
    unfold Underway at hlater
    rw [hpump] at hlater
    rw [append_nil]
    exact ⟨hlater, fun _ push hpush ↦ .inl hpush⟩

/-- While no pass runs, a mark that was kept is covered. -/
theorem KeepsMarks.covered (h : s.KeepsMarks) (hquiet : s.pumping = false) : Covered s.log := by
  have hidle : s.pump = .idle := by
    unfold HostTablePublisher.pumping at hquiet
    split at hquiet
    next hidle => exact hidle
    next => cases hquiet
  intro before after hsplit
  obtain hcovers | hwaits | ⟨between, later, -, hlater⟩ := h before after hsplit
  · exact hcovers
  · exact absurd hwaits.2 (by simp [hquiet])
  · unfold Underway at hlater
    rw [hidle] at hlater
    exact hlater.elim

end Marks

/-! ## Lost marks -/

/-- The pass has its revision or its snapshot still to come. -/
def Starting (s : HostTablePublisher) : Prop :=
  s.pump = .nextRevision ∨ ∃ revision, s.pump = .buildSnapshot revision

/-- A dirty publisher was marked after the last beginning of a pass; a pass that is starting began
first after some mark and has built nothing. -/
structure Recorded (s : HostTablePublisher) : Prop where
  waiting : s.dirty = true →
    ∃ before after, s.log = before ++ .marked :: after ∧ ∀ n, .began n ∉ after
  begun : s.Starting →
    ∃ before after, s.log = before ++ .marked :: after ∧ ∀ n, .began n ∈ after → n = s.passes
  unbuilt : s.Starting → ∀ pass, .built s.passes pass ∉ s.log
  numbered : ∀ n pass, .built n pass ∈ s.log → n ≤ s.passes

section Record

variable {s s' : HostTablePublisher} {added : List Entry}

theorem recorded_initial : Recorded {} where
  waiting h := nomatch h
  begun h := by rcases h with h | ⟨_, h⟩ <;> cases h
  unbuilt _ _ h := nomatch h
  numbered _ _ h := nomatch h

/-- No pass begins, and none is starting any more. -/
theorem Recorded.extend (h : s.Recorded) (hlog : s'.log = s.log ++ added)
    (hbegan : ∀ n, .began n ∉ added) (hbuilt : ∀ n pass, .built n pass ∈ added → n ≤ s.passes)
    (hdirty : s'.dirty = s.dirty) (hpasses : s'.passes = s.passes) (hstarted : ¬ s'.Starting) :
    s'.Recorded where
  waiting hwaits := by
    obtain ⟨before, after, hsplit, hnone⟩ := h.waiting (hdirty ▸ hwaits)
    refine ⟨before, after ++ added, ?_, ?_⟩
    · rw [hlog, hsplit, append_assoc, cons_append]
    · intro n hn
      exact (mem_append.mp hn).elim (hnone n) (hbegan n)
  begun hstarting := absurd hstarting hstarted
  unbuilt hstarting := absurd hstarting hstarted
  numbered n pass hn := by
    rw [hlog] at hn
    rw [hpasses]
    exact (mem_append.mp hn).elim (h.numbered n pass) (hbuilt n pass)

theorem Recorded.loop (h : s.Recorded) : s.loop.Recorded := by
  unfold HostTablePublisher.loop
  split
  next hdirty =>
    obtain ⟨before, after, hsplit, hnone⟩ := h.waiting hdirty
    have hold : ∀ n pass, .built n pass ∈ s.beginPass.log → n ≤ s.passes := by
      intro n pass hn
      cases mem_append.mp hn with
      | inl hearlier => exact h.numbered n pass hearlier
      | inr hlast => exact nomatch mem_singleton.mp hlast
    constructor
    · intro hwaits
      cases hwaits
    · intro _
      refine ⟨before, after ++ [.began (s.passes + 1)], ?_, ?_⟩
      · have hlog : s.beginPass.log = s.log ++ [.began (s.passes + 1)] := rfl
        rw [hlog, hsplit, append_assoc, cons_append]
      · intro n hn
        cases mem_append.mp hn with
        | inl hafter => exact absurd hafter (hnone n)
        | inr hlast => exact Entry.began.inj (mem_singleton.mp hlast)
    · intro _ pass hbuilt
      have hle : s.passes + 1 ≤ s.passes := hold _ pass hbuilt
      omega
    · intro n pass hn
      exact le_trans (hold n pass hn) (Nat.le_succ s.passes)
  next =>
    refine h.extend (append_nil _).symm (fun _ ↦ not_mem_nil)
      (fun _ _ hn ↦ nomatch hn) rfl rfl ?_
    intro hstarting
    rcases hstarting with hpump | ⟨_, hpump⟩ <;> cases hpump

theorem Recorded.markDirty (h : s.Recorded) : s.markDirty.Recorded := by
  have hnew : ∀ n pass, .built n pass ∈ s.log ++ [.marked] → .built n pass ∈ s.log := by
    intro n pass hn
    cases mem_append.mp hn with
    | inl hearlier => exact hearlier
    | inr hlast => exact nomatch mem_singleton.mp hlast
  have hmarked : Recorded { s with dirty := true, log := s.log ++ [.marked] } := by
    constructor
    · intro _
      exact ⟨s.log, [], rfl, fun _ ↦ not_mem_nil⟩
    · intro _
      exact ⟨s.log, [], rfl, fun _ hn ↦ nomatch hn⟩
    · intro hstarting pass hbuilt
      exact h.unbuilt hstarting pass (hnew _ pass hbuilt)
    · intro n pass hn
      exact h.numbered n pass (hnew n pass hn)
  unfold HostTablePublisher.markDirty
  dsimp only
  split
  next => exact hmarked
  next => exact hmarked.loop

theorem Recorded.step {event : Event} (h : s.Recorded) (heffect : Effect s event s') :
    s'.Recorded := by
  have hquiet : ∀ pump : Pump, pump ≠ .nextRevision → (∀ revision, pump ≠ .buildSnapshot revision) →
      Recorded { s with pump } := by
    intro pump hrevision hsnapshot
    refine h.extend (append_nil _).symm (fun _ ↦ not_mem_nil)
      (fun _ _ hn ↦ nomatch hn) rfl rfl ?_
    intro hstarting
    obtain hpump | ⟨revision, hpump⟩ := hstarting
    · exact hrevision hpump
    · exact hsnapshot revision hpump
  cases heffect with
  | markDirty => exact h.markDirty
  | revisionTaken revision hpump =>
    exact ⟨h.waiting, fun _ ↦ h.begun (.inl hpump), fun _ ↦ h.unbuilt (.inl hpump), h.numbered⟩
  | refused => exact hquiet _ (fun heq ↦ nomatch heq) fun _ heq ↦ nomatch heq
  | snapshotRead revision pass hpump =>
    refine h.extend rfl (by simp) ?_ rfl rfl ?_
    · intro n other hn
      rw [(Entry.built.inj (mem_singleton.mp hn)).1]
    · intro hstarting
      rcases hstarting with hstart | ⟨_, hstart⟩ <;> cases hstart
  | delivered push hpump hpush =>
    refine h.extend rfl (by simp) (by simp) rfl rfl ?_
    intro hstarting
    rcases hstarting with hstart | ⟨_, hstart⟩ <;> cases hstart
  | failed hpump => exact hquiet _ (fun heq ↦ nomatch heq) fun _ heq ↦ nomatch heq
  | stage hpump => exact hquiet _ (fun heq ↦ nomatch heq) fun _ heq ↦ nomatch heq
  | finished hpump hfailed => exact h.loop
  | sleep hpump => exact hquiet _ (fun heq ↦ nomatch heq) fun _ heq ↦ nomatch heq
  | woken hpump => exact hquiet _ (fun heq ↦ nomatch heq) fun _ heq ↦ nomatch heq

/-- The mark for which a pass began that has built nothing is not covered. -/
theorem Recorded.not_covered (h : s.Recorded) (hstarting : s.Starting) : ¬ Covered s.log := by
  intro hcovered
  obtain ⟨before, after, hsplit, hlast⟩ := h.begun hstarting
  obtain ⟨between, n, later, hafter, publication, hbuilt, -⟩ := hcovered before after hsplit
  have hn : n = s.passes := hlast n (by simp [hafter])
  have hmem : .built s.passes publication ∈ s.log := by
    rw [hsplit, hafter, ← hn]
    simp [hbuilt]
  exact h.unbuilt hstarting publication hmem

end Record

section Runs

variable {bootTimestamp : Int} {baseDomain : String}

theorem recorded_of_run {s : HostTablePublisher}
    (h : Transitions.run (step bootTimestamp baseDomain) {} events = some s) : s.Recorded :=
  Transitions.run_invariant (fun _ hstep hs ↦ Recorded.step hs (step_effect hstep)) h
    (fun _ _ ↦ trivial) recorded_initial

theorem keepsMarks_of_run {s : HostTablePublisher}
    (h : Transitions.run (step bootTimestamp baseDomain) {} events = some s)
    (hevents : ∀ event ∈ events, ¬ event.Refuses) : s.KeepsMarks := by
  have hinitial : KeepsMarks {} := by
    intro before after hsplit
    simp at hsplit
  exact Transitions.run_invariant (fun hevent hstep hs ↦ KeepsMarks.step hs hevent (step_effect hstep))
    h hevents hinitial

/-- A refused step leaves a mark that nothing covers and a publisher that has stopped. -/
theorem lost_of_refused {s s' : HostTablePublisher} {event : Event} (h : s.Recorded)
    (hevent : event.Refuses) (hstep : step bootTimestamp baseDomain s event = some s') :
    s'.pumping = false ∧ ¬ Covered s'.log := by
  cases step_effect hstep with
  | refused _ _ hstarting => exact ⟨rfl, h.not_covered hstarting⟩
  | _ => exact hevent.elim

end Runs

/-- In every state of a run in which no pass is running, every earlier mark is covered by a pass
that began after it and delivered its snapshot to every node: exactly when no revision and no
snapshot of the run was refused. -/
theorem marks_covered_iff (bootTimestamp : Int) (baseDomain : String) (events : List Event)
    (s : HostTablePublisher)
    (h : Transitions.run (step bootTimestamp baseDomain) {} events = some s) :
    (∀ earlier, earlier <+: events → ∀ s',
        Transitions.run (step bootTimestamp baseDomain) {} earlier = some s' →
        s'.pumping = false → Covered s'.log) ↔
      ∀ event ∈ events, ¬ event.Refuses := by
  constructor
  · intro hcovered event hevent hrefuses
    obtain ⟨earlier, later, rfl⟩ := append_of_mem hevent
    obtain ⟨before, hbefore, hrest⟩ := Transitions.run_split h
    obtain ⟨after, hafter, -⟩ := Transitions.run_cons hrest
    have hrun : Transitions.run (step bootTimestamp baseDomain) {} (earlier ++ [event]) =
        some after := by
      rw [Transitions.run_append, hbefore, Option.bind_some, Transitions.run, hafter]
      rfl
    have hlost := lost_of_refused (recorded_of_run hbefore) hrefuses hafter
    have hstart : earlier ++ [event] <+: earlier ++ event :: later := ⟨later, by simp⟩
    exact hlost.2 (hcovered _ hstart after hrun hlost.1)
  · intro hevents earlier hstart s' hrun hquiet
    have hkeeps := keepsMarks_of_run hrun fun event hevent ↦ hevents event (hstart.subset hevent)
    exact hkeeps.covered hquiet

end HostTablePublisher

namespace Sample

open HostTablePublisher

def markedNode : FleetNode := node "n1" none (some "10.88.0.1")

/-- A second mark comes during the first pass, which fails; the second pass is repeated once. -/
def retriedEvents : List Event :=
  [.markDirty, .revisionTaken (some 7), .markDirty, .snapshotRead [] [markedNode] [],
    .answered 0 (some 503), .settled, .settled,
    .revisionTaken (some 8), .snapshotRead [] [markedNode] [], .answered 0 none, .settled, .settled,
    .woken, .answered 0 (some 200), .settled, .settled]

/-- The revision of the pass that follows the mark is refused. -/
def refusedEvents : List Event := [.markDirty, .revisionRefused]

end Sample

namespace HostTablePublisher

theorem marks_covered_retried :
    ∃ s, Transitions.run (step 0 "apps.test") {} Sample.retriedEvents = some s ∧
      s.pumping = false ∧ Covered s.log := by
  have hsome : (Transitions.run (step 0 "apps.test") {} Sample.retriedEvents).map pumping =
      some false := rfl
  obtain ⟨s, hs, hquiet⟩ := Option.map_eq_some_iff.mp hsome
  have hnone : ∀ event ∈ Sample.retriedEvents, ¬ event.Refuses := by
    simp [Sample.retriedEvents, Event.Refuses]
  have hcovered := (marks_covered_iff 0 "apps.test" Sample.retriedEvents s hs).mpr hnone
  exact ⟨s, hs, hquiet, hcovered _ (prefix_refl _) s hs hquiet⟩

/-- No pass is running, and no pass that began after the mark has delivered anything. -/
theorem marks_covered_refused :
    ∃ s, Transitions.run (step 0 "apps.test") {} Sample.refusedEvents = some s ∧
      s.pumping = false ∧ ¬ Covered s.log := by
  refine ⟨_, rfl, rfl, ?_⟩
  intro hcovered
  obtain ⟨between, n, later, hafter, publication, hbuilt, -⟩ := hcovered [] [.began 1] rfl
  have hmem : .built n publication ∈ [Entry.began 1] := by simp [hafter, hbuilt]
  exact nomatch mem_singleton.mp hmem

end HostTablePublisher

end PrivosCluster.Routing
