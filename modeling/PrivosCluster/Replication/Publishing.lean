import Mathlib.Data.Fintype.Pi

/-!
# Publishing a shared state under increasing revisions

Processes share a database and a counter. A process that is marked dirty takes the next revision
from the counter, reads the parts of the database one after the other, and pushes what follows from
them to a list of addresses, stage by stage. A pass with a failed push is repeated with the same
revision and the same reads until it succeeds or the process is marked dirty again. Pushes may be
lost, delayed and delivered repeatedly; an address keeps the content with the highest revision.
-/

namespace Replication

open Option

variable {D A T G X Q ι : Type} {P : ι → Type}

/-- A push of a process: its revision, what it has read of the database, and the address. -/
structure Push (A Q : Type) (P : ι → Type) where
  sender : Q
  revision : Int
  reads : (i : ι) → P i
  address : A

/-- What is read, where it is pushed to, and what the receivers do with it. `X` is what a delivery
depends on besides the push; a receiver answers whether it took part in the push. -/
structure Publishing (D A T G X Q : Type) {ι : Type} (P : ι → Type) where
  read : D → (i : ι) → P i
  stages : ((i : ι) → P i) → List (List A)
  content : ((i : ι) → P i) → A → T
  stored : G → A → Option (Int × T)
  receive : Push A Q P → X → G → Bool × G

/-- The higher revision is kept; of equal ones the stored content. -/
def keepNewer (revision : Int) (content : T) : Option (Int × T) → Option (Int × T)
  | none => some (revision, content)
  | some stored => if stored.1 < revision then some (revision, content) else some stored

namespace Publishing

def targets (pub : Publishing D A T G X Q P) (reads : (i : ι) → P i) : List A :=
  (pub.stages reads).flatten

/-- A push that is answered leaves the newer content at its address and nothing else changed; one
that is refused changes nothing. -/
structure Lawful (pub : Publishing D A T G X Q P) : Prop where
  refused : ∀ push x g a, (pub.receive push x g).1 = false →
    pub.stored (pub.receive push x g).2 a = pub.stored g a
  taken : ∀ push x g, (pub.receive push x g).1 = true →
    pub.stored (pub.receive push x g).2 push.address =
      keepNewer push.revision (pub.content push.reads push.address) (pub.stored g push.address)
  frame : ∀ push x g a, a ≠ push.address →
    pub.stored (pub.receive push x g).2 a = pub.stored g a

/-- The address stores this or a higher revision. -/
def AtLeast (pub : Publishing D A T G X Q P) (g : G) (revision : Int) (a : A) : Prop :=
  ∃ stored, pub.stored g a = some stored ∧ revision ≤ stored.1

end Publishing

/-- Where a process is: the revision and the reads of its pass, the addresses of the stage that have
not answered, the stages to come, and whether a push has failed. -/
inductive Phase (A : Type) (P : ι → Type) where
  | idle
  | revising
  | reading (revision : Int) (parts : (i : ι) → Option (P i))
  | pushing (revision : Int) (reads : (i : ι) → P i) (waiting : List A) (rest : List (List A))
      (failed : Bool)
  | sleeping (revision : Int) (reads : (i : ι) → P i)

structure Process (A : Type) (P : ι → Type) where
  dirty : Bool
  phase : Phase A P

/-- `announced` tells whether some process was marked dirty after the last write. -/
structure State (D A G Q : Type) (P : ι → Type) where
  db : D
  announced : Bool
  counter : Int
  processes : Q → Process A P
  sent : List (Push A Q P)
  answered : List (A × Int)
  receivers : G

/-- What may happen. A delivery is of any push ever sent, by its number. -/
inductive Action (D A X Q ι : Type) where
  | write (db : D)
  | markDirty (q : Q)
  | takeRevision (q : Q)
  | read (q : Q) (i : ι)
  | send (q : Q)
  | deliver (n : Nat) (x : X)
  | acknowledge (q : Q) (a : A)
  | fail (q : Q) (a : A)
  | settle (q : Q)
  | wake (q : Q)

def Phase.revision? : Phase A P → Option Int
  | .idle => none
  | .revising => none
  | .reading revision _ => some revision
  | .pushing revision _ _ _ _ => some revision
  | .sleeping revision _ => some revision

def Phase.isRevising : Phase A P → Bool
  | .revising => true
  | _ => false

/-- The process will not start another pass unless it is marked dirty. -/
def Process.Settled (p : Process A P) : Prop := p.dirty = false ∧ p.phase.isRevising = false

/-- After a pass: the next one, if the process was marked dirty meanwhile. -/
def Process.finish (p : Process A P) : Process A P :=
  ⟨false, if p.dirty then .revising else .idle⟩

/-! ## Receivers -/

variable {r : Int} {a : A} {push : Push A Q P} {action : Action D A X Q ι}

theorem keepNewer_of_atLeast {revision : Int} {content : T} {stored : Option (Int × T)}
    (h : ∃ old, stored = some old ∧ r ≤ old.1) :
    ∃ new, keepNewer revision content stored = some new ∧ r ≤ new.1 := by
  obtain ⟨old, rfl, hle⟩ := h
  unfold keepNewer
  dsimp only
  split
  next hlt => exact ⟨_, rfl, le_trans hle (le_of_lt hlt)⟩
  next => exact ⟨old, rfl, hle⟩

theorem le_keepNewer (revision : Int) (content : T) (stored : Option (Int × T)) :
    ∃ new, keepNewer revision content stored = some new ∧ revision ≤ new.1 := by
  unfold keepNewer
  cases stored with
  | none => exact ⟨_, rfl, le_refl revision⟩
  | some old =>
    dsimp only
    split
    next => exact ⟨_, rfl, le_refl revision⟩
    next hnot => exact ⟨old, rfl, not_lt.mp hnot⟩

theorem Publishing.Lawful.atLeast_receive {pub : Publishing D A T G X Q P} (hlaw : pub.Lawful)
    {x : X} {g : G} (h : pub.AtLeast g r a) : pub.AtLeast (pub.receive push x g).2 r a := by
  unfold Publishing.AtLeast at h ⊢
  cases hanswer : (pub.receive push x g).1 with
  | false =>
    rw [hlaw.refused push x g a hanswer]
    exact h
  | true =>
    by_cases ha : a = push.address
    · subst ha
      rw [hlaw.taken push x g hanswer]
      exact keepNewer_of_atLeast h
    · rw [hlaw.frame push x g a ha]
      exact h

/-- What a receiver stores after a delivery it stored before, or it is of the push. -/
theorem Publishing.Lawful.stored_receive {pub : Publishing D A T G X Q P} (hlaw : pub.Lawful)
    {x : X} {g : G} {stored : Int × T} (h : pub.stored (pub.receive push x g).2 a = some stored) :
    pub.stored g a = some stored ∨
      (a = push.address ∧ stored = (push.revision, pub.content push.reads a)) := by
  cases hanswer : (pub.receive push x g).1 with
  | false =>
    rw [hlaw.refused push x g a hanswer] at h
    exact .inl h
  | true =>
    by_cases ha : a = push.address
    · subst ha
      rw [hlaw.taken push x g hanswer] at h
      unfold keepNewer at h
      split at h
      next => exact .inr ⟨rfl, (some.inj h).symm⟩
      next old hold =>
        split at h
        next => exact .inr ⟨rfl, (some.inj h).symm⟩
        next => exact .inl (hold.trans h)
    · rw [hlaw.frame push x g a ha] at h
      exact .inl h

/-- The process as it starts to push the first of these stages. -/
def launched (dirty : Bool) (revision : Int) (reads : (i : ι) → P i) (stages : List (List A))
    (failed : Bool) : Process A P :=
  ⟨dirty, .pushing revision reads (stages.head?.getD []) stages.tail failed⟩

/-- The pushes of a stage go out together. -/
def pushesOf (q : Q) (revision : Int) (reads : (i : ι) → P i) (stages : List (List A)) :
    List (Push A Q P) :=
  (stages.head?.getD []).map fun a ↦ ⟨q, revision, reads, a⟩

/-! ## Steps -/

section Step

variable [DecidableEq A] [DecidableEq ι]

/-- How a pass goes on: the process it leaves, and the pushes it sends. -/
inductive Progress (pub : Publishing D A T G X Q P) (s : State D A G Q P) (q : Q) :
    Process A P → List (Push A Q P) → Prop where
  | read {revision : Int} {parts : (i : ι) → Option (P i)} (i : ι)
      (h : (s.processes q).phase = .reading revision parts) :
      Progress pub s q ⟨(s.processes q).dirty,
        .reading revision (Function.update parts i (some (pub.read s.db i)))⟩ []
  | send {revision : Int} {parts : (i : ι) → Option (P i)} {reads : (i : ι) → P i}
      (h : (s.processes q).phase = .reading revision parts) (hreads : ∀ i, parts i = some (reads i)) :
      Progress pub s q (launched (s.processes q).dirty revision reads (pub.stages reads) false)
        (pushesOf q revision reads (pub.stages reads))
  | acknowledge {revision : Int} {reads : (i : ι) → P i} {waiting : List A} {rest : List (List A)}
      {failed : Bool} {a : A}
      (h : (s.processes q).phase = .pushing revision reads waiting rest failed)
      (ha : (a, revision) ∈ s.answered) :
      Progress pub s q
        ⟨(s.processes q).dirty, .pushing revision reads (waiting.erase a) rest failed⟩ []
  | fail {revision : Int} {reads : (i : ι) → P i} {waiting : List A} {rest : List (List A)}
      {failed : Bool} {a : A}
      (h : (s.processes q).phase = .pushing revision reads waiting rest failed) :
      Progress pub s q
        ⟨(s.processes q).dirty, .pushing revision reads (waiting.erase a) rest true⟩ []
  | stage {revision : Int} {reads : (i : ι) → P i} {stages : List (List A)} {failed : Bool}
      (h : (s.processes q).phase = .pushing revision reads [] stages failed) :
      Progress pub s q (launched (s.processes q).dirty revision reads stages failed)
        (pushesOf q revision reads stages)
  | sleep {revision : Int} {reads : (i : ι) → P i}
      (h : (s.processes q).phase = .pushing revision reads [] [] true)
      (hclean : (s.processes q).dirty = false) :
      Progress pub s q ⟨(s.processes q).dirty, .sleeping revision reads⟩ []
  | finish {revision : Int} {reads : (i : ι) → P i} {failed : Bool}
      (h : (s.processes q).phase = .pushing revision reads [] [] failed)
      (hfailed : failed = true → (s.processes q).dirty = true) :
      Progress pub s q (s.processes q).finish []
  | wake {revision : Int} {reads : (i : ι) → P i}
      (h : (s.processes q).phase = .sleeping revision reads) :
      Progress pub s q (launched (s.processes q).dirty revision reads (pub.stages reads) false)
        (pushesOf q revision reads (pub.stages reads))

variable [DecidableEq Q]

/-- One process goes on and sends pushes. -/
def State.advance (s : State D A G Q P) (q : Q) (p : Process A P) (pushes : List (Push A Q P)) :
    State D A G Q P :=
  { s with processes := Function.update s.processes q p, sent := s.sent ++ pushes }

/-- The ways in which a step changes the state. -/
inductive Effect (pub : Publishing D A T G X Q P) (s : State D A G Q P) :
    State D A G Q P → Prop where
  | write (db : D) : Effect pub s { s with db, announced := false }
  | markDirty (q : Q) (p : Process A P) (h : ¬ p.Settled)
      (hphase : p.phase = (s.processes q).phase ∨ p.phase = .revising ∧ (s.processes q).phase = .idle)
      (hidle : p.phase ≠ .idle) :
      Effect pub s { s.advance q p [] with announced := true }
  | takeRevision (q : Q) (h : (s.processes q).phase = .revising) :
      Effect pub s { s.advance q
        ⟨(s.processes q).dirty, .reading (s.counter + 1) fun _ ↦ none⟩ [] with
        counter := s.counter + 1 }
  | progress (q : Q) (p : Process A P) (pushes : List (Push A Q P)) (h : Progress pub s q p pushes) :
      Effect pub s (s.advance q p pushes)
  | deliver (push : Push A Q P) (x : X) (h : push ∈ s.sent) :
      Effect pub s { s with
        receivers := (pub.receive push x s.receivers).2
        answered := if (pub.receive push x s.receivers).1 then
            (push.address, push.revision) :: s.answered
          else s.answered }

variable [Fintype ι]

def step (pub : Publishing D A T G X Q P) (s : State D A G Q P) :
    Action D A X Q ι → Option (State D A G Q P)
  | .write db => some { s with db, announced := false }
  | .markDirty q =>
    let p := s.processes q
    match p.phase with
    | .idle => some { s.advance q ⟨false, .revising⟩ [] with announced := true }
    | phase => some { s.advance q ⟨true, phase⟩ [] with announced := true }
  | .takeRevision q =>
    let p := s.processes q
    match p.phase with
    | .revising =>
      some { s.advance q ⟨p.dirty, .reading (s.counter + 1) fun _ ↦ none⟩ [] with
        counter := s.counter + 1 }
    | _ => none
  | .read q i =>
    let p := s.processes q
    match p.phase with
    | .reading revision parts =>
      some (s.advance q
        ⟨p.dirty, .reading revision (Function.update parts i (some (pub.read s.db i)))⟩ [])
    | _ => none
  | .send q =>
    let p := s.processes q
    match p.phase with
    | .reading revision parts =>
      if h : ∀ i, (parts i).isSome then
        let reads := fun i ↦ (parts i).get (h i)
        some (s.advance q (launched p.dirty revision reads (pub.stages reads) false)
          (pushesOf q revision reads (pub.stages reads)))
      else none
    | _ => none
  | .deliver n x =>
    match s.sent[n]? with
    | none => none
    | some push =>
      let (answer, receivers) := pub.receive push x s.receivers
      some { s with receivers, answered := if answer then (push.address, push.revision) :: s.answered
        else s.answered }
  | .acknowledge q a =>
    let p := s.processes q
    match p.phase with
    | .pushing revision reads waiting rest failed =>
      if a ∈ waiting ∧ (a, revision) ∈ s.answered then
        some (s.advance q ⟨p.dirty, .pushing revision reads (waiting.erase a) rest failed⟩ [])
      else none
    | _ => none
  | .fail q a =>
    let p := s.processes q
    match p.phase with
    | .pushing revision reads waiting rest _ =>
      if a ∈ waiting then
        some (s.advance q ⟨p.dirty, .pushing revision reads (waiting.erase a) rest true⟩ [])
      else none
    | _ => none
  | .settle q =>
    let p := s.processes q
    match p.phase with
    | .pushing revision reads [] (stage :: rest) failed =>
      some (s.advance q (launched p.dirty revision reads (stage :: rest) failed)
        (pushesOf q revision reads (stage :: rest)))
    | .pushing revision reads [] [] failed =>
      if failed ∧ p.dirty = false then some (s.advance q ⟨p.dirty, .sleeping revision reads⟩ [])
      else some (s.advance q p.finish [])
    | _ => none
  | .wake q =>
    let p := s.processes q
    match p.phase with
    | .sleeping revision reads =>
      some (s.advance q (launched p.dirty revision reads (pub.stages reads) false)
        (pushesOf q revision reads (pub.stages reads)))
    | _ => none

/-- Every document of the database comes from a write of the run, and nothing was pushed before. -/
def State.initial (db : D) (receivers : G) : State D A G Q P where
  db := db
  announced := true
  counter := 0
  processes _ := ⟨false, .idle⟩
  sent := []
  answered := []
  receivers := receivers

inductive Run (pub : Publishing D A T G X Q P) (s : State D A G Q P) : State D A G Q P → Prop where
  | start : Run pub s s
  | step {s' s'' : State D A G Q P} (earlier : Run pub s s') (action : Action D A X Q ι)
      (h : step pub s' action = some s'') : Run pub s s''

variable {pub : Publishing D A T G X Q P}

/-- The actions one after the other, as far as all of them are possible. -/
def execute (pub : Publishing D A T G X Q P) (s : State D A G Q P) :
    List (Action D A X Q ι) → Option (State D A G Q P)
  | [] => some s
  | action :: actions => (step pub s action).bind fun s' ↦ execute pub s' actions

variable {s' s : State D A G Q P}

theorem Run.trans {s'' : State D A G Q P} (h : Run pub s s') (h' : Run pub s' s'') :
    Run pub s s'' := by
  induction h' with
  | start => exact h
  | step _ action hstep ih => exact ih.step action hstep

theorem Run.of_execute {actions : List (Action D A X Q ι)} (h : execute pub s actions = some s') :
    Run pub s s' := by
  induction actions generalizing s with
  | nil =>
    rw [← some.inj h]
    exact .start
  | cons action actions ih =>
    obtain ⟨next, hnext, hrest⟩ := Option.bind_eq_some_iff.mp h
    exact (Run.step .start action hnext).trans (ih hrest)

/-- What a step does, whatever the action. -/
theorem step_effect (h : step pub s action = some s') : Effect pub s s' := by
  cases action with
  | write db =>
    rw [← some.inj h]
    exact .write db
  | markDirty q =>
    unfold step at h
    dsimp only at h
    split at h
    next hphase =>
      rw [← some.inj h]
      exact .markDirty q _ (fun hsettled ↦ nomatch hsettled.2) (.inr ⟨rfl, hphase⟩)
        (fun hidle ↦ nomatch hidle)
    next hphase =>
      rw [← some.inj h]
      exact .markDirty q _ (fun hsettled ↦ nomatch hsettled.1) (.inl rfl) hphase
  | takeRevision q =>
    unfold step at h
    dsimp only at h
    split at h
    next hphase =>
      rw [← some.inj h]
      exact .takeRevision q hphase
    next => cases h
  | read q i =>
    unfold step at h
    dsimp only at h
    split at h
    next hphase =>
      rw [← some.inj h]
      exact .progress q _ _ (.read i hphase)
    next => cases h
  | send q =>
    unfold step at h
    dsimp only at h
    split at h
    next hphase =>
      split at h
      next hsome =>
        rw [← some.inj h]
        exact .progress q _ _ (.send hphase fun i ↦ (Option.some_get (hsome i)).symm)
      next => cases h
    next => cases h
  | deliver n x =>
    unfold step at h
    dsimp only at h
    split at h
    next => cases h
    next push hpush =>
      rw [← some.inj h]
      exact .deliver push x (List.mem_of_getElem? hpush)
  | acknowledge q a =>
    unfold step at h
    dsimp only at h
    split at h
    next hphase =>
      split at h
      next ha =>
        rw [← some.inj h]
        exact .progress q _ _ (.acknowledge hphase ha.2)
      next => cases h
    next => cases h
  | fail q a =>
    unfold step at h
    dsimp only at h
    split at h
    next hphase =>
      split at h
      next =>
        rw [← some.inj h]
        exact .progress q _ _ (.fail hphase)
      next => cases h
    next => cases h
  | settle q =>
    unfold step at h
    dsimp only at h
    split at h
    next hphase =>
      rw [← some.inj h]
      exact .progress q _ _ (.stage hphase)
    next hphase =>
      split at h
      next hsleep =>
        rw [← some.inj h]
        rw [hsleep.1] at hphase
        exact .progress q _ _ (.sleep hphase hsleep.2)
      next hnot =>
        rw [← some.inj h]
        apply Effect.progress q _ _ (.finish hphase _)
        intro hfailed
        simpa [hfailed] using hnot
    next => cases h
  | wake q =>
    unfold step at h
    dsimp only at h
    split at h
    next hphase =>
      rw [← some.inj h]
      exact .progress q _ _ (.wake hphase)
    next => cases h

/-! ## Revisions never decrease -/

theorem atLeast_step (hlaw : pub.Lawful) (h : step pub s action = some s')
    (ha : pub.AtLeast s.receivers r a) : pub.AtLeast s'.receivers r a := by
  cases step_effect h with
  | write db => exact ha
  | markDirty q p => exact ha
  | takeRevision q => exact ha
  | progress q p pushes => exact ha
  | deliver push x => exact hlaw.atLeast_receive ha

/-- The revision stored at an address never decreases. -/
theorem Run.atLeast (hlaw : pub.Lawful) (h : Run pub s s') (ha : pub.AtLeast s.receivers r a) :
    pub.AtLeast s'.receivers r a := by
  induction h with
  | start => exact ha
  | step _ action hstep ih => exact atLeast_step hlaw hstep ih

end Step

end Replication
