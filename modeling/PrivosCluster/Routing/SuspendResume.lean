import PrivosCluster.AsyncProgram.History
import PrivosCluster.Routing.HostReplacement
import PrivosCluster.Routing.WorkspaceSuspension

/-!
# Suspended and resumed

A suspension writes into each row the state it takes the row from, and a resumption puts every row
that is out of service back in the state it remembers. A row that was in service comes back in its
own state, however often its workspace is suspended in between, and whether or not its custom
hostname is given up meanwhile. What a row remembers is forgotten only on the way back: a row that
no suspension has reached keeps it.
-/

namespace PrivosCluster.Routing

open AsyncProgram DocumentStore AppHostRegistry List Function

/-- Out of service with its workspace. -/
def IsAway (row : AppHostRecord) : Prop := row.state = .wsSuspended ∨ row.state = .cfReleased

/-- Where a row that was in service may stand while its workspace is suspended and resumed. -/
inductive Phase where
  /-- Nothing is known of a suspension. -/
  | loose
  | away
  /-- After a resumption, with nothing known of a suspension before it. -/
  | settled
  | back

def Phase.resumed : Phase → Phase
  | .loose | .settled => .settled
  | .away | .back => .back

/-- The row is as it was. -/
def Kept (before row : AppHostRecord) : Prop :=
  row.state = before.state ∧ row.preSuspendState = before.preSuspendState ∧
    row.wsSuspendedAt = before.wsSuspendedAt

/-- The row is out of service, and remembers where it has been. -/
def Away (before row : AppHostRecord) : Prop :=
  IsAway row ∧ row.preSuspendState = some before.state

/-- The row is in its former state, and remembers nothing. -/
def Back (before row : AppHostRecord) : Prop :=
  row.state = before.state ∧ row.preSuspendState = none ∧ row.wsSuspendedAt = none

def Phase.Allows (before row : AppHostRecord) : Phase → Prop
  | .loose => Kept before row ∨ Away before row
  | .away => Away before row
  | .settled => Kept before row ∨ Back before row
  | .back => Back before row

/-- A row beside the same row before, where those that were in a state are in its phase. -/
structure Tracked (workspaceId : String) (phase : AppHostState → Phase)
    (before row : AppHostRecord) : Prop where
  sameHost : row.hostname = before.hostname
  sameWorkspace : row.workspaceId = before.workspaceId
  own : before.workspaceId = workspaceId → before.state ∈ suspensibleStates →
    (phase before.state).Allows before row
  retired : before.state = .deleting ∨ before.state = .failed → row.state = before.state
  foreign : before.workspaceId ≠ workspaceId →
    row.state = before.state ∨ before.state = .wsSuspended ∧ row.state = .cfReleased

/-- A row after a resumption, beside the same row before. Where the workspace was suspended before,
the row remembers nothing of it. -/
structure Restored (workspaceId : String) (suspended : Prop) (before row : AppHostRecord) :
    Prop where
  sameHost : row.hostname = before.hostname
  sameWorkspace : row.workspaceId = before.workspaceId
  state : before.workspaceId = workspaceId → before.state ∈ suspensibleStates →
    row.state = before.state
  forgotten : before.workspaceId = workspaceId → before.state ∈ suspensibleStates → suspended →
    row.preSuspendState = none ∧ row.wsSuspendedAt = none
  retired : before.state = .deleting ∨ before.state = .failed → row.state = before.state
  foreign : before.workspaceId ≠ workspaceId →
    row.state = before.state ∨ before.state = .wsSuspended ∧ row.state = .cfReleased

/-- A resumption changes no row of another workspace, and none that is not out of service. -/
def ResumeSpares (workspaceId : String) (before row : AppHostRecord) : Prop :=
  before.workspaceId ≠ workspaceId ∨ ¬ IsAway before → row = before

/-- The operations that take hosts of a workspace out of service for a time. -/
def RegistryOperation.TakesOut (workspaceId : String) : RegistryOperation → Prop
  | .setWorkspaceHostsSuspended workspaceId' true => workspaceId' = workspaceId
  | .releaseSuspendedCfHostnames _ => True
  | _ => False

/-- One of the steps is a suspension of the workspace that returned. -/
def SuspendedIn (workspaceId : String)
    (steps : List (HistoryStep RegistryOperation JsError Edge)) : Prop :=
  ∃ step ∈ steps, step.operation = .setWorkspaceHostsSuspended workspaceId true ∧
    step.outcome = .returned ()

/-! ## Single rows -/

variable {row : AppHostRecord}

theorem not_away_of_suspensible (h : row.state ∈ suspensibleStates) : ¬ IsAway row := by
  intro haway
  obtain hstate | hstate := haway
  · rw [hstate] at h
    exact absurd h (by decide)
  · rw [hstate] at h
    exact absurd h (by decide)

theorem not_away_of_retired (h : row.state = .deleting ∨ row.state = .failed) : ¬ IsAway row := by
  intro haway
  rcases h with h | h <;> rcases haway with haway | haway <;> rw [h] at haway <;> cases haway

theorem not_suspensible_of_retired (h : row.state = .deleting ∨ row.state = .failed) :
    row.state ∉ suspensibleStates := by
  rcases h with h | h <;> rw [h] <;> decide

theorem isSuspendedOf_iff {workspaceId : String} {origin : Option AppHostState} :
    isSuspendedOf workspaceId origin row ↔
      row.workspaceId = workspaceId ∧ IsAway row ∧ row.preSuspendState = origin := by
  simp only [isSuspendedOf, Bool.and_eq_true, Bool.or_eq_true, beq_iff_eq, IsAway, and_assoc]

section Rows

variable {workspaceId : String} {phase phase' : AppHostState → Phase}
  {before row row' : AppHostRecord}

theorem Tracked.refl (row : AppHostRecord) :
    Tracked workspaceId (fun _ ↦ .loose) row row where
  sameHost := rfl
  sameWorkspace := rfl
  own _ _ := .inl ⟨rfl, rfl, rfl⟩
  retired _ := rfl
  foreign _ := .inl rfl

theorem Tracked.imp (h : Tracked workspaceId phase before row)
    (hphase : before.state ∈ suspensibleStates →
      (phase before.state).Allows before row → (phase' before.state).Allows before row) :
    Tracked workspaceId phase' before row :=
  ⟨h.sameHost, h.sameWorkspace, fun hown hservice ↦ hphase hservice (h.own hown hservice),
    h.retired, h.foreign⟩

/-- What has to be seen of a write to a row. -/
theorem Tracked.write (h : Tracked workspaceId phase before row)
    (hhost : row'.hostname = row.hostname) (hworkspace : row'.workspaceId = row.workspaceId)
    (hown : row.workspaceId = workspaceId → before.state ∈ suspensibleStates →
      (phase before.state).Allows before row → (phase' before.state).Allows before row')
    (hretired : row.state = .deleting ∨ row.state = .failed → row'.state = row.state)
    (hforeign : row.workspaceId ≠ workspaceId →
      row'.state = row.state ∨ row.state = .wsSuspended ∧ row'.state = .cfReleased) :
    Tracked workspaceId phase' before row' where
  sameHost := hhost.trans h.sameHost
  sameWorkspace := hworkspace.trans h.sameWorkspace
  own hbefore hservice := hown (h.sameWorkspace.trans hbefore) hservice (h.own hbefore hservice)
  retired hbefore := by
    have hsame := h.retired hbefore
    rw [← hsame] at hbefore ⊢
    exact hretired hbefore
  foreign hbefore := by
    have hother : row.workspaceId ≠ workspaceId := by rwa [h.sameWorkspace]
    obtain hsame | ⟨hsuspended, hreleased⟩ := hforeign hother
    · rw [hsame]
      exact h.foreign hbefore
    · obtain hsame | ⟨-, haway⟩ := h.foreign hbefore
      · exact .inr ⟨hsame.symm.trans hsuspended, hreleased⟩
      · rw [hsuspended] at haway
        cases haway

/-- A suspension reaches only rows of its workspace that are in service. -/
theorem Tracked.suspend (h : Tracked workspaceId phase before row) {origin : AppHostState}
    (horigin : origin ∈ suspensibleStates) {time : Time}
    (hphase : ∀ state, phase state = .loose ∨ phase state = .away) :
    Tracked workspaceId (Function.update phase origin .away) before
      (if row.workspaceId == workspaceId && row.state == origin then suspendedAs origin time row
        else row) := by
  apply h.write
  · split <;> rfl
  · split <;> rfl
  · intro hown _ hallows
    have hstands : Kept before row ∨ Away before row := by
      rcases hphase before.state with hphase | hphase <;> rw [hphase] at hallows
      · exact hallows
      · exact .inr hallows
    split
    next hmatch =>
      have hstate : row.state = origin := by simpa [hown] using hmatch
      have hkept : Kept before row := by
        apply hstands.resolve_right
        intro haway
        exact not_away_of_suspensible (hstate ▸ horigin) haway.1
      have horigin' : origin = before.state := hstate.symm.trans hkept.1
      rw [← horigin', update_self]
      exact ⟨.inl rfl, congrArg some horigin'⟩
    next hmatch =>
      by_cases hstate : before.state = origin
      · rw [hstate, update_self]
        apply hstands.resolve_left
        intro hkept
        simp [hown, hkept.1.trans hstate] at hmatch
      · rwa [update_of_ne hstate]
  · intro hretired
    split
    next hmatch =>
      have hstate : row.state = origin := by simpa using (Bool.and_eq_true_iff.mp hmatch).2
      exact absurd (hstate ▸ horigin) (not_suspensible_of_retired hretired)
    next => rfl
  · intro hforeign
    simp [hforeign]

/-- A resumption puts back the rows of its workspace that remember the state. -/
theorem Tracked.resume (h : Tracked workspaceId phase before row) {state : AppHostState}
    {time : Time} (hstate : state ∈ suspensibleStates) :
    Tracked workspaceId (Function.update phase state (phase state).resumed) before
      (if isSuspendedOf workspaceId (some state) row then resumedAs state time row else row) := by
  apply h.write
  · split <;> rfl
  · split <;> rfl
  · intro hown hservice hallows
    split
    next hmatch =>
      obtain ⟨-, haway, hremembers⟩ := isSuspendedOf_iff.mp hmatch
      have hgone : ¬ row.state = before.state :=
        fun hsame ↦ not_away_of_suspensible (hsame ▸ hservice) haway
      have hrow : Away before row := by
        cases hphase : phase before.state <;> rw [hphase] at hallows
        · exact hallows.resolve_left fun hkept ↦ hgone hkept.1
        · exact hallows
        · exact absurd (hallows.elim And.left And.left) hgone
        · exact absurd hallows.1 hgone
      obtain rfl : state = before.state := Option.some.inj (hremembers.symm.trans hrow.2)
      have hback : Back before (resumedAs before.state time row) := ⟨rfl, rfl, rfl⟩
      rw [update_self]
      cases phase before.state
      · exact .inr hback
      · exact hback
      · exact .inr hback
      · exact hback
    next hmatch =>
      by_cases hsame : before.state = state
      · rw [hsame, update_self]
        have hnot : ¬ Away before row := by
          intro haway
          exact hmatch (isSuspendedOf_iff.mpr ⟨hown, haway.1, hsame ▸ haway.2⟩)
        rw [hsame] at hallows
        cases hphase : phase state <;> rw [hphase] at hallows
        · exact .inl (hallows.resolve_right hnot)
        · exact absurd hallows hnot
        · exact hallows
        · exact hallows
      · rwa [update_of_ne hsame]
  · intro hretired
    split
    next hmatch => exact absurd (isSuspendedOf_iff.mp hmatch).2.1 (not_away_of_retired hretired)
    next => rfl
  · intro hforeign
    rw [if_neg fun hmatch ↦ hforeign (isSuspendedOf_iff.mp hmatch).1]
    exact .inl rfl

/-- The rows that remember no state are none of those that were in service. -/
theorem Tracked.fallback {p : Phase} (h : Tracked workspaceId (fun _ ↦ p) before row)
    (hp : p = .settled ∨ p = .back) {time : Time} :
    Tracked workspaceId (fun _ ↦ p) before
      (if isSuspendedOf workspaceId none row then
        { row with state := .active, updatedAt := time, wsSuspendedAt := none } else row) := by
  split
  next hmatch =>
    obtain ⟨hown, haway, -⟩ := isSuspendedOf_iff.mp hmatch
    refine h.write rfl rfl ?_ ?_ ?_
    · intro _ hservice hallows
      have hsame : row.state = before.state := by
        obtain rfl | rfl := hp
        · exact hallows.elim And.left And.left
        · exact hallows.1
      exact absurd haway (not_away_of_suspensible (hsame ▸ hservice))
    · exact fun hretired ↦ absurd haway (not_away_of_retired hretired)
    · exact absurd hown
  next => exact h

/-- A row whose custom hostname is given up stays away. -/
theorem Tracked.release {p : Phase} (h : Tracked workspaceId (fun _ ↦ p) before row)
    (hp : p = .loose ∨ p = .away) {time : Time} (hstate : row.state = .wsSuspended) :
    Tracked workspaceId (fun _ ↦ p) before (CfCustomHostnameWorker.releasedAs time row) := by
  refine h.write rfl rfl ?_ ?_ ?_
  · intro _ hservice hallows
    obtain rfl | rfl := hp
    · obtain hkept | haway := hallows
      · exact absurd (Or.inl hstate) (not_away_of_suspensible (hkept.1 ▸ hservice))
      · exact .inr ⟨.inr rfl, haway.2⟩
    · exact ⟨.inr rfl, hallows.2⟩
  · exact fun hretired ↦ absurd (Or.inl hstate) (not_away_of_retired hretired)
  · exact fun _ ↦ .inr ⟨hstate, rfl⟩

end Rows

/-! ## Rows in their places -/

variable {outcome : Outcome JsError Unit} {suspended : Bool}

section Places

variable {operation : RegistryOperation} {R : AppHostRecord → AppHostRecord → Prop}
  {befores : List AppHostRecord}

theorem forall₂_respond {c : EdgeCall} {s : Edge} (hc : operation.Makes c)
    (hwrites : ∀ op, operation.Writes op → op.KeepsPlaces R)
    (h : List.Forall₂ R befores s.system.appHosts.docs) (x : EdgeChoice) :
    List.Forall₂ R befores (Edge.respond c x s).2.system.appHosts.docs := by
  cases c with
  | cloudflare request =>
    rw [respond_cloudflare_system]
    exact h
  | sleep ms => exact h
  | system c =>
    cases c with
    | appHosts op => exact forall₂_serveBulk (hwrites op hc) h
    | _ => exact h

/-- What every write of an operation leaves to the rows, an execution does, however it ends. -/
theorem forall₂_executes {deps : EdgeDeps} {s s' : Edge}
    (execution : Executes (edge fun _ _ _ ↦ True) (operation.program deps) s outcome s')
    (hwrites : ∀ op, operation.Writes op → op.KeepsPlaces R)
    (h : List.Forall₂ R befores s.system.appHosts.docs) :
    List.Forall₂ R befores s'.system.appHosts.docs := by
  have hasks := RegistryOperation.program_asks deps operation
  have hkeeps := hasks.wp (m := edge fun _ _ _ ↦ True)
    (I := fun s : Edge ↦ List.Forall₂ R befores s.system.appHosts.docs)
    (fun c x s hc _ hs ↦ forall₂_respond hc hwrites hs x) h
  exact Executes.invariant (I := fun s : Edge ↦ List.Forall₂ R befores s.system.appHosts.docs)
    execution hkeeps h

end Places

/-! ## What takes hosts out of service -/

section Steps

variable {workspaceId : String} {operation : RegistryOperation} {p : Phase}
  {befores : List AppHostRecord}

/-- The rows of `app_hosts` beside those of an earlier time. -/
def TrackedRows (workspaceId : String) (phase : AppHostState → Phase)
    (befores : List AppHostRecord) (s : System) : Prop :=
  List.Forall₂ (Tracked workspaceId phase) befores s.appHosts.docs

theorem keepsPlaces_of_takesOut {op : BulkOperation AppHostRecord} (hop : operation.Writes op)
    (htakes : operation.TakesOut workspaceId) (hp : p = .loose ∨ p = .away) :
    op.KeepsPlaces (Tracked workspaceId fun _ ↦ p) := by
  cases operation with
  | setWorkspaceHostsSuspended workspaceId' suspended =>
    cases suspended with
    | false => exact htakes.elim
    | true =>
      obtain rfl : workspaceId' = workspaceId := htakes
      cases op with
      | one op =>
        cases op with
        | findOne | find => trivial
        | _ => exact hop.elim
      | updateMany filter update =>
        obtain ⟨origin, horigin, time, rfl, rfl⟩ := hop
        intro before row hrow hmatch
        have hswept := @Tracked.suspend _ _ _ _ hrow _ horigin time fun _ ↦ hp
        rw [if_pos hmatch] at hswept
        apply hswept.imp
        intro _ hallows
        by_cases hstate : before.state = origin
        · rw [hstate, update_self] at hallows
          obtain rfl | rfl := hp
          · exact .inr hallows
          · exact hallows
        · rwa [update_of_ne hstate] at hallows
      | deleteMany => exact hop.elim
  | releaseSuspendedCfHostnames retentionDays =>
    cases op with
    | one op =>
      cases op with
      | findOne | find => trivial
      | updateOne filter update =>
        intro before row hrow hmatch
        obtain ⟨host, time, ⟨-, rfl⟩ | ⟨rfl, rfl⟩⟩ := hop
        · exact hrow.write rfl rfl (fun _ _ hallows ↦ hallows) (fun _ ↦ rfl) fun _ ↦ .inl rfl
        · exact hrow.release hp (by simpa using (Bool.and_eq_true_iff.mp hmatch).2)
      | _ => exact hop.elim
    | updateMany | deleteMany => exact hop.elim
  | _ => exact htakes.elim

/-- However it ends, and wherever it is stopped. -/
theorem TrackedRows.executes {deps : EdgeDeps} {s s' : Edge}
    (execution : Executes (edge fun _ _ _ ↦ True) (operation.program deps) s outcome s')
    (htakes : operation.TakesOut workspaceId) (hp : p = .loose ∨ p = .away)
    (h : TrackedRows workspaceId (fun _ ↦ p) befores s.system) :
    TrackedRows workspaceId (fun _ ↦ p) befores s'.system :=
  forall₂_executes execution (fun _ hop ↦ keepsPlaces_of_takesOut hop htakes hp) h

/-- A resumption reaches only rows of its workspace that are out of service. -/
theorem resume_spares {deps : EdgeDeps} {s s' : Edge} (execution : Executes (edge fun _ _ _ ↦ True)
      ((RegistryOperation.setWorkspaceHostsSuspended workspaceId false).program deps) s outcome
      s') :
    List.Forall₂ (ResumeSpares workspaceId) s.system.appHosts.docs s'.system.appHosts.docs := by
  apply forall₂_executes execution
  · intro op hop
    cases op with
    | one op =>
      cases op with
      | findOne | find => trivial
      | _ => exact hop.elim
    | updateMany filter update =>
      obtain ⟨⟨origin, rfl⟩, -⟩ := hop
      intro before row hrow hmatch hspared
      obtain rfl : row = before := hrow hspared
      obtain ⟨hown, haway, -⟩ := isSuspendedOf_iff.mp hmatch
      obtain hforeign | hthere := hspared
      · exact absurd hown hforeign
      · exact absurd haway hthere
    | deleteMany => exact hop.elim
  · exact forall₂_same.mpr fun _ _ _ ↦ rfl

end Steps

/-! ## Sweeps -/

section Sweeps

variable {workspaceId : String} {s : System} {befores : List AppHostRecord}

/-- The phases of the states in the middle of a sweep. -/
def swept (visited : List AppHostState) (p p' : Phase) (state : AppHostState) : Phase :=
  if state ∈ visited then p' else p

theorem swept_snoc (visited : List AppHostState) (p p' : Phase) (state : AppHostState) :
    swept (visited ++ [state]) p p' = Function.update (swept visited p p') state p' := by
  funext other
  by_cases h : other = state
  · rw [h, update_self]
    exact if_pos (by simp)
  · rw [update_of_ne h]
    simp only [swept, mem_append, mem_singleton, h, or_false]

/-- An update of all matching rows that was not refused. -/
theorem finishes_updateMany {R R' : AppHostRecord → AppHostRecord → Prop}
    {filter : AppHostRecord → Bool} {update : AppHostRecord → AppHostRecord}
    (h : List.Forall₂ R befores s.appHosts.docs)
    (hupdate : ∀ before row, R before row → R' before (if filter row then update row else row)) :
    Finishes (onOutcome (fun _ s' ↦ List.Forall₂ R' befores s'.appHosts.docs) fun _ _ ↦ True)
      (AppHosts.updateMany filter update) s := by
  apply finishes_await.mpr
  intro x
  cases hanswer : (System.respond (.appHosts (.updateMany filter update)) x s).1 with
  | error e => trivial
  | ok result =>
    have hdocs := docs_of_updateMany_ok hanswer
    change List.Forall₂ R' befores (serveBulk _ x s.appHosts).2.docs
    rw [hdocs]
    exact forall₂_updateAll h hupdate

/-- A suspension that is not refused takes every row away that was in service. -/
theorem sweep_suspends {time : Time} (h : TrackedRows workspaceId (fun _ ↦ .loose) befores s) :
    Finishes (onOutcome (fun _ s' ↦ TrackedRows workspaceId (fun _ ↦ .away) befores s')
      fun _ _ ↦ True) (sweepHosts workspaceId true time) s := by
  have hloop : Finishes (onOutcome (fun _ s' ↦
      TrackedRows workspaceId (swept suspensibleStates .loose .away) befores s')
      fun _ _ ↦ True) (sweepHosts workspaceId true time) s := by
    unfold sweepHosts
    rw [if_pos rfl]
    apply wp_foldEach (I := fun visited _ s' ↦
      TrackedRows workspaceId (swept visited .loose .away) befores s')
    · intro visited origin rest modified s' hsplit hrows
      have horigin : origin ∈ suspensibleStates := by
        rw [hsplit]
        simp
      apply (finishes_updateMany hrows fun before row hrow ↦ hrow.suspend horigin ?_).bind
      · intro result s'' hrows'
        rw [← swept_snoc] at hrows'
        exact hrows'
      · exact fun _ _ _ ↦ trivial
      · intro state
        unfold swept
        split
        · exact .inr rfl
        · exact .inl rfl
    · exact h
  apply hloop.imp
  intro r s' hr
  cases r with
  | error e => trivial
  | ok modified =>
    apply List.Forall₂.imp _ hr
    intro before row hrow
    apply hrow.imp
    intro hservice hallows
    rwa [swept, if_pos hservice] at hallows

/-- A resumption that is not refused puts back what was away. -/
theorem sweep_resumes {p : Phase} {time : Time}
    (h : TrackedRows workspaceId (fun _ ↦ p) befores s) :
    Finishes (onOutcome (fun _ s' ↦ TrackedRows workspaceId (fun _ ↦ p.resumed) befores s')
      fun _ _ ↦ True) (sweepHosts workspaceId false time) s := by
  have hresumed : p.resumed.resumed = p.resumed := by cases p <;> rfl
  have hloop : wp (system fun _ _ _ ↦ True) (fun _ _ _ ↦ True) (onOutcome (fun _ s' ↦
      TrackedRows workspaceId (swept suspensibleStates p p.resumed) befores s') fun _ _ ↦ True)
      (Program.foldEach (fun modified (state : AppHostState) ↦
        AppHosts.updateMany (isSuspendedOf workspaceId (some state)) (resumedAs state time) >>=
          fun result ↦ .pure (modified + result.modifiedCount)) 0 suspensibleStates) s := by
    apply wp_foldEach (I := fun visited _ s' ↦
      TrackedRows workspaceId (swept visited p p.resumed) befores s')
    · intro visited state rest modified s' hsplit hrows
      have hstate : state ∈ suspensibleStates := by
        rw [hsplit]
        simp
      have hphase : (swept visited p p.resumed state).resumed = p.resumed := by
        unfold swept
        split
        · exact hresumed
        · rfl
      apply (finishes_updateMany hrows fun before row hrow ↦ hrow.resume hstate).bind
      · intro result s'' hrows'
        rw [hphase, ← swept_snoc] at hrows'
        exact hrows'
      · exact fun _ _ _ ↦ trivial
    · exact h
  apply hloop.bind
  · intro modified s' hrows
    have hrows' : TrackedRows workspaceId (fun _ ↦ p.resumed) befores s' := by
      apply List.Forall₂.imp _ hrows
      intro before row hrow
      apply hrow.imp
      intro hservice hallows
      rwa [swept, if_pos hservice] at hallows
    have hp : p.resumed = .settled ∨ p.resumed = .back := by
      cases p
      · exact .inl rfl
      · exact .inr rfl
      · exact .inl rfl
      · exact .inr rfl
    apply (finishes_updateMany hrows' fun before row hrow ↦ hrow.fallback hp).bind
    · exact fun _ _ hrows'' ↦ hrows''
    · exact fun _ _ _ ↦ trivial
  · exact fun _ _ _ ↦ trivial

/-- A call that is not about the rows leaves them tracked. -/
theorem announce_tracked {deps : RegistryDeps} {cfWorker : Bool} {phase : AppHostState → Phase}
    (h : TrackedRows workspaceId phase befores s) :
    Finishes (fun _ s' ↦ TrackedRows workspaceId phase befores s') (announce deps cfWorker) s := by
  apply finishes_of_asks (P := SparesRows)
    (I := (TrackedRows workspaceId phase befores)) _ _ h
  · apply Asks.bind
    · apply Asks.onlyIf
      exact Asks.ask (σ := systemSignature) (c := .master (.service .markDirty)) trivial
    · intro _
      exact Asks.onlyIf (Asks.ask (σ := systemSignature) (c := .notify) trivial)
  · intro c x s' hc hrows
    unfold TrackedRows
    rw [respond_appHosts hc]
    exact hrows

/-- The request around a sweep. -/
theorem setWorkspaceHostsSuspended_finishes {deps : RegistryDeps} {p p' : Phase}
    (hsweep : ∀ time s, TrackedRows workspaceId (fun _ ↦ p) befores s →
      Finishes (onOutcome (fun _ s' ↦ TrackedRows workspaceId (fun _ ↦ p') befores s')
        fun _ _ ↦ True) (sweepHosts workspaceId suspended time) s)
    (h : TrackedRows workspaceId (fun _ ↦ p) befores s) :
    Finishes (onOutcome (fun _ s' ↦ TrackedRows workspaceId (fun _ ↦ p') befores s')
      fun _ _ ↦ True) (setWorkspaceHostsSuspended deps workspaceId suspended) s := by
  apply finishes_bind.mpr
  apply finishes_now.mpr
  intro elapsed
  apply (hsweep _ (s.tick elapsed) h).bind
  · intro modified s' hrows
    have hannounce : Finishes (fun _ s'' ↦ TrackedRows workspaceId (fun _ ↦ p') befores s'')
        (Program.onlyIf (0 < modified) (announce deps (!suspended))) s' := by
      apply wp_onlyIf.mpr
      split
      · exact announce_tracked hrows
      · exact hrows
    apply hannounce.bind
    · exact fun _ _ hrows' ↦ hrows'
    · exact fun _ _ _ ↦ trivial
  · exact fun _ _ _ ↦ trivial

/-- What a request that returned has done to the rows. -/
theorem executes_sweep {deps : EdgeDeps} {p p' : Phase} {s s' : Edge}
    (execution : Executes (edge fun _ _ _ ↦ True)
      ((RegistryOperation.setWorkspaceHostsSuspended workspaceId suspended).program deps) s
      (.returned ()) s') (hsweep : ∀ time s, TrackedRows workspaceId (fun _ ↦ p) befores s →
      Finishes (onOutcome (fun _ s' ↦ TrackedRows workspaceId (fun _ ↦ p') befores s')
        fun _ _ ↦ True) (sweepHosts workspaceId suspended time) s)
    (h : TrackedRows workspaceId (fun _ ↦ p) befores s.system) :
    TrackedRows workspaceId (fun _ ↦ p') befores s'.system := by
  have hsystem : Finishes _ (setWorkspaceHostsSuspended deps.registry workspaceId suspended)
      s.system := setWorkspaceHostsSuspended_finishes hsweep h
  have hedge : wp (edge fun _ _ _ ↦ True) _ _ _ s := wp.onEdge (fun _ _ _ _ ↦ trivial) hsystem
  have hprogram : wp (edge fun _ _ _ ↦ True) (fun _ _ _ ↦ True)
      (onOutcome (fun _ s' ↦ TrackedRows workspaceId (fun _ ↦ p') befores s'.system)
        fun _ _ ↦ True)
      ((RegistryOperation.setWorkspaceHostsSuspended workspaceId suspended).program deps) s := by
    apply hedge.bind
    · exact fun _ _ hrows ↦ hrows
    · exact fun _ _ _ ↦ trivial
  exact execution.post_returned hprogram

end Sweeps

/-! ## Histories -/

section Histories

variable {deps : EdgeDeps} {workspaceId : String} {s s' : Edge}
  {steps : List (HistoryStep RegistryOperation JsError Edge)}

/-- What is known of the rows after suspensions and passes, and once a suspension has returned. -/
theorem tracked_of_history
    (history : History (edge fun _ _ _ ↦ True) (RegistryOperation.program deps) s steps s')
    (hsteps : ∀ step ∈ steps, step.operation.TakesOut workspaceId) :
    TrackedRows workspaceId (fun _ ↦ .loose) s.system.appHosts.docs s'.system ∧
      (SuspendedIn workspaceId steps →
        TrackedRows workspaceId (fun _ ↦ .away) s.system.appHosts.docs s'.system) := by
  induction history with
  | start =>
    refine ⟨forall₂_same.mpr fun row _ ↦ .refl row, ?_⟩
    rintro ⟨_, h, -⟩
    cases h
  | @step steps s' s'' operation outcome _ execution ih =>
    have hearlier : ∀ step ∈ steps, step.operation.TakesOut workspaceId :=
      fun step h ↦ hsteps step (mem_append_left _ h)
    have htakes : operation.TakesOut workspaceId := hsteps ⟨operation, outcome, s', s''⟩ (by simp)
    obtain ⟨hloose, haway⟩ := ih hearlier
    refine ⟨hloose.executes execution htakes (.inl rfl), ?_⟩
    rintro ⟨step, hstep, hoperation, houtcome⟩
    obtain hbefore | hlast := mem_append.mp hstep
    · exact (haway ⟨step, hbefore, hoperation, houtcome⟩).executes execution htakes (.inr rfl)
    · obtain rfl := mem_singleton.mp hlast
      obtain rfl : operation = _ := hoperation
      obtain rfl : outcome = _ := houtcome
      exact executes_sweep execution (fun _ _ ↦ sweep_suspends) hloose

theorem Tracked.restored {suspended : Prop} {before row : AppHostRecord}
    (h : Tracked workspaceId (fun _ ↦ .settled) before row)
    (hback : suspended → Tracked workspaceId (fun _ ↦ .back) before row) :
    Restored workspaceId suspended before row where
  sameHost := h.sameHost
  sameWorkspace := h.sameWorkspace
  state hown hservice := (h.own hown hservice).elim And.left And.left
  forgotten hown hservice hsuspended := ((hback hsuspended).own hown hservice).2
  retired := h.retired
  foreign := h.foreign

/--
After any suspensions of a workspace and passes for old suspensions, a resumption that returns puts
every row of the workspace that was in service back in its state, and where one of the suspensions
returned, the row remembers nothing. Rows that were failed or being deleted stay as they were, and
those of other workspaces too, but that a pass may give up the custom hostname of one that was
suspended before. The resumption itself changes none of these.
-/
theorem resume_restores (deps : EdgeDeps) (workspaceId : String) (s s' s'' : Edge)
    (steps : List (HistoryStep RegistryOperation JsError Edge))
    (history : History (edge fun _ _ _ ↦ True) (RegistryOperation.program deps) s steps s')
    (hsteps : ∀ step ∈ steps, step.operation.TakesOut workspaceId)
    (hresumed : Executes (edge fun _ _ _ ↦ True)
      ((RegistryOperation.setWorkspaceHostsSuspended workspaceId false).program deps) s'
      (.returned ()) s'') :
    List.Forall₂ (Restored workspaceId (SuspendedIn workspaceId steps)) s.system.appHosts.docs
        s''.system.appHosts.docs ∧
      List.Forall₂ (ResumeSpares workspaceId) s'.system.appHosts.docs
        s''.system.appHosts.docs := by
  obtain ⟨hloose, haway⟩ := tracked_of_history history hsteps
  have hsettled := executes_sweep hresumed (fun _ _ ↦ sweep_resumes) hloose
  refine ⟨?_, resume_spares hresumed⟩
  by_cases hsuspended : SuspendedIn workspaceId steps
  · have hback := executes_sweep hresumed (fun _ _ ↦ sweep_resumes) (haway hsuspended)
    apply List.Forall₂.imp _ hback
    intro before row hrow
    have hrow' : Tracked workspaceId (fun _ ↦ .settled) before row :=
      hrow.imp fun _ hallows ↦ .inr hallows
    exact hrow'.restored fun _ ↦ hrow
  · apply List.Forall₂.imp _ hsettled
    intro before row hrow
    exact hrow.restored fun h ↦ absurd h hsuspended

end Histories

namespace Sample

/-- The operation at this state, where the environment does as it is asked. -/
def edgeRun (operation : RegistryOperation) (s : Edge) : Except JsError Unit × Edge :=
  (edge fun _ _ _ ↦ True).run (fun _ _ ↦ {}) (operation.program edgeDeps) s

theorem edgeRun_executes {operation : RegistryOperation} {s : Edge}
    (h : (edgeRun operation s).1.isOk) :
    Executes (edge fun _ _ _ ↦ True) (operation.program edgeDeps) s (.returned ())
      (edgeRun operation s).2 := by
  have hexecutes := (edge fun _ _ _ ↦ True).executes_run (fun _ _ ↦ {}) (fun _ _ ↦ trivial)
    (operation.program edgeDeps) s
  change Executes _ _ _ (.ofExcept (edgeRun operation s).1) (edgeRun operation s).2 at hexecutes
  cases hanswer : (edgeRun operation s).1 with
  | ok _ =>
    rw [hanswer] at hexecutes
    exact hexecutes
  | error e =>
    rw [hanswer] at h
    cases h

/-- A row in service that still remembers an earlier suspension. -/
def remembering : Edge where
  system := { vacant with
    appHosts := ⟨[{ customRow with preSuspendState := some .pending }], by decide⟩ }
  customHostnames := []
  issued := []

def suspension : RegistryOperation := .setWorkspaceHostsSuspended "acme" true

def resumption : RegistryOperation := .setWorkspaceHostsSuspended "acme" false

def retention : RegistryOperation := .releaseSuspendedCfHostnames 0

end Sample

/-- A workspace that is suspended twice, gives up a custom hostname in between, and is resumed. -/
theorem resume_restores_twice :
    let s₁ := (Sample.edgeRun Sample.suspension Sample.remembering).2
    let s₂ := (Sample.edgeRun Sample.retention s₁).2
    let s₃ := (Sample.edgeRun Sample.suspension s₂).2
    let s₄ := (Sample.edgeRun Sample.resumption s₃).2
    s₂.system.appHosts.docs.map (·.state) = [.cfReleased] ∧
      ∃ steps, steps.length = 3 ∧ SuspendedIn "acme" steps ∧
        List.Forall₂ (Restored "acme" (SuspendedIn "acme" steps))
          Sample.remembering.system.appHosts.docs s₄.system.appHosts.docs := by
  intro s₁ s₂ s₃ s₄
  refine ⟨by decide +kernel, ?_⟩
  have h₁ : Executes _ _ Sample.remembering (.returned ()) s₁ :=
    Sample.edgeRun_executes (by decide +kernel)
  have h₂ : Executes _ _ s₁ (.returned ()) s₂ := Sample.edgeRun_executes (by decide +kernel)
  have h₃ : Executes _ _ s₂ (.returned ()) s₃ := Sample.edgeRun_executes (by decide +kernel)
  have h₄ : Executes _ _ s₃ (.returned ()) s₄ := Sample.edgeRun_executes (by decide +kernel)
  let steps : List (HistoryStep RegistryOperation JsError Edge) :=
    [⟨Sample.suspension, .returned (), Sample.remembering, s₁⟩,
      ⟨Sample.retention, .returned (), s₁, s₂⟩, ⟨Sample.suspension, .returned (), s₂, s₃⟩]
  have history : History (edge fun _ _ _ ↦ True) (RegistryOperation.program Sample.edgeDeps)
      Sample.remembering steps s₃ := .step (.step (.step .start h₁) h₂) h₃
  refine ⟨steps, rfl, ⟨_, mem_cons_self, rfl, rfl⟩, ?_⟩
  refine (resume_restores Sample.edgeDeps "acme" Sample.remembering s₃ s₄ steps history ?_ h₄).1
  intro step hstep
  simp only [steps, mem_cons, not_mem_nil, or_false] at hstep
  rcases hstep with rfl | rfl | rfl
  · rfl
  · trivial
  · rfl

/-- Without a suspension a row goes on to remember what it remembered before. -/
theorem resume_remembers :
    ¬ ∀ (deps : EdgeDeps) (workspaceId : String) (s s' s'' : Edge)
      (steps : List (HistoryStep RegistryOperation JsError Edge)), steps ≠ [] →
      History (edge fun _ _ _ ↦ True) (RegistryOperation.program deps) s steps s' →
      (∀ step ∈ steps, step.operation.TakesOut workspaceId ∧ step.outcome = .returned ()) →
      Executes (edge fun _ _ _ ↦ True)
        ((RegistryOperation.setWorkspaceHostsSuspended workspaceId false).program deps) s'
        (.returned ()) s'' →
      List.Forall₂ (Restored workspaceId True) s.system.appHosts.docs
        s''.system.appHosts.docs := by
  intro h
  let s₁ := (Sample.edgeRun Sample.retention Sample.remembering).2
  let s₂ := (Sample.edgeRun Sample.resumption s₁).2
  have h₁ : Executes _ _ Sample.remembering (.returned ()) s₁ :=
    Sample.edgeRun_executes (by decide +kernel)
  have h₂ : Executes _ _ s₁ (.returned ()) s₂ := Sample.edgeRun_executes (by decide +kernel)
  have hrows := h Sample.edgeDeps "acme" Sample.remembering s₁ s₂ _ (by simp) (.step .start h₁)
    (by simp [Sample.retention, RegistryOperation.TakesOut]) h₂
  have hdocs : s₂.system.appHosts.docs = Sample.remembering.system.appHosts.docs := by
    decide +kernel
  rw [hdocs] at hrows
  obtain ⟨hrow, -⟩ := forall₂_cons.mp hrows
  have hforgotten := (hrow.forgotten rfl (by decide) trivial).1
  cases hforgotten

end PrivosCluster.Routing
