import PrivosCluster.Replication.Publishing

/-!
# Convergence of what was published

A mark after a write makes some process start another pass, which takes its revision first and reads
after it. So the latest revision is of the present database as soon as no process is to start another
pass, and once its pushes have all been answered it is stored everywhere.
-/

namespace Replication

open List Option

variable {D A T G X Q ι : Type} {P : ι → Type} {pub : Publishing D A T G X Q P}

/-! ## The invariant -/

/-- What a process's pass has read or pushed agrees with the database, if it is the latest pass. -/
def Phase.Agrees (counter : Int) (reads : (i : ι) → P i) : Phase A P → Prop
  | .idle => True
  | .revising => True
  | .reading revision parts => revision = counter → ∀ i v, parts i = some v → v = reads i
  | .pushing revision pushed _ _ _ => revision = counter → pushed = reads
  | .sleeping revision pushed => revision = counter → pushed = reads

/-- Of one process: it is idle only when clean, its revision came from the counter, and while no push
of its pass has failed each target has answered or is still to answer. -/
structure Process.Inv (pub : Publishing D A T G X Q P) (counter : Int) (receivers : G)
    (p : Process A P) : Prop where
  clean : p.phase = .idle → p.dirty = false
  le : ∀ revision, p.phase.revision? = some revision → revision ≤ counter
  reached : ∀ revision reads waiting rest, p.phase = .pushing revision reads waiting rest false →
    ∀ a ∈ pub.targets reads, a ∈ waiting ∨ a ∈ rest.flatten ∨ pub.AtLeast receivers revision a

/-- The latest revision is of the present database: what was pushed with it is, and it is still being
pushed or has reached every target. -/
structure State.Current (pub : Publishing D A T G X Q P) (s : State D A G Q P) : Prop where
  agrees : ∀ q, (s.processes q).phase.Agrees s.counter (pub.read s.db)
  sent : ∀ push ∈ s.sent, push.revision = s.counter → push.reads = pub.read s.db
  pushed : (∃ q, (s.processes q).phase.revision? = some s.counter) ∨
    ∀ a ∈ pub.targets (pub.read s.db), pub.AtLeast s.receivers s.counter a

structure State.Inv (pub : Publishing D A T G X Q P) (s : State D A G Q P) : Prop where
  processes : ∀ q, (s.processes q).Inv pub s.counter s.receivers
  distinct : ∀ q q' revision, (s.processes q).phase.revision? = some revision →
    (s.processes q').phase.revision? = some revision → q = q'
  sent_le : ∀ push ∈ s.sent, push.revision ≤ s.counter
  stored_sent : ∀ a stored, pub.stored s.receivers a = some stored →
    ∃ push ∈ s.sent, push.revision = stored.1 ∧ stored.2 = pub.content push.reads a
  answered : ∀ a revision, (a, revision) ∈ s.answered → pub.AtLeast s.receivers revision a
  current : s.announced = true → (∀ q, (s.processes q).Settled) → s.Current pub

theorem Phase.eq_idle {phase : Phase A P} (hrevision : phase.revision? = none)
    (hrevising : phase.isRevising = false) : phase = .idle := by
  cases phase with
  | idle => rfl
  | revising => cases hrevising
  | reading => cases hrevision
  | pushing => cases hrevision
  | sleeping => cases hrevision

variable {counter : Int} {receivers : G} {stages : List (List A)} {push : Push A Q P}
  {s' : State D A G Q P}

theorem Process.Inv.mono {counter' : Int} {receivers' : G} {p : Process A P}
    (h : p.Inv pub counter receivers) (hcounter : counter ≤ counter')
    (hreceivers : ∀ revision a, pub.AtLeast receivers revision a → pub.AtLeast receivers' revision a) :
    p.Inv pub counter' receivers' where
  clean := h.clean
  le revision hrevision := le_trans (h.le revision hrevision) hcounter
  reached revision reads waiting rest hphase a ha := by
    cases h.reached revision reads waiting rest hphase a ha with
    | inl hwaiting => exact .inl hwaiting
    | inr hother =>
      cases hother with
      | inl hrest => exact .inr (.inl hrest)
      | inr hreached => exact .inr (.inr (hreceivers revision a hreached))

theorem mem_stages {a : A} (h : a ∈ stages.flatten) :
    a ∈ stages.head?.getD [] ∨ a ∈ stages.tail.flatten := by
  cases stages with
  | nil => exact .inl h
  | cons stage rest =>
    exact mem_append.mp h

theorem launched_inv {revision : Int} {dirty failed : Bool} {reads : (i : ι) → P i}
    (hle : revision ≤ counter) (hreached : failed = false → ∀ a ∈ pub.targets reads,
      a ∈ stages.flatten ∨ pub.AtLeast receivers revision a) :
    (launched dirty revision reads stages failed : Process A P).Inv pub counter receivers where
  clean h := nomatch h
  le r hr := by
    rw [← some.inj hr]
    exact hle
  reached r reads' waiting rest hphase a ha := by
    injection hphase with hr hreads hwaiting hrest hfailed
    subst hr hreads hwaiting hrest
    cases hreached hfailed a ha with
    | inl hstages =>
      cases mem_stages hstages with
      | inl hhead => exact .inl hhead
      | inr htail => exact .inr (.inl htail)
    | inr hat => exact .inr (.inr hat)

section Progress

variable [DecidableEq A] [DecidableEq ι]

namespace Progress

variable {s : State D A G Q P} {q : Q} {p : Process A P} {pushes : List (Push A Q P)}

/-- A pass keeps its revision to its end. -/
theorem revision (h : Progress pub s q p pushes) {revision : Int}
    (hrevision : p.phase.revision? = some revision) :
    (s.processes q).phase.revision? = some revision := by
  cases h with
  | read i h => rw [h, ← hrevision]; rfl
  | send h => rw [h, ← hrevision]; rfl
  | acknowledge h => rw [h, ← hrevision]; rfl
  | fail h => rw [h, ← hrevision]; rfl
  | stage h => rw [h, ← hrevision]; rfl
  | sleep h => rw [h, ← hrevision]; rfl
  | finish h =>
    unfold Process.finish at hrevision
    split at hrevision
    · cases hrevision
    · cases hrevision
  | wake h => rw [h, ← hrevision]; rfl

/-- What is sent is of the pass. -/
theorem pushes_of (h : Progress pub s q p pushes) (hpush : push ∈ pushes) :
    ∃ waiting rest failed, p.phase = .pushing push.revision push.reads waiting rest failed := by
  cases h with
  | send | stage | wake =>
    obtain ⟨a, -, rfl⟩ := List.mem_map.mp hpush
    exact ⟨_, _, _, rfl⟩
  | read => cases hpush
  | acknowledge => cases hpush
  | fail => cases hpush
  | sleep => cases hpush
  | finish => cases hpush

/-- A process that was to start another pass still is. -/
theorem settled (h : Progress pub s q p pushes) (hp : p.Settled) : (s.processes q).Settled := by
  cases h with
  | read i h => exact ⟨hp.1, by rw [h]; rfl⟩
  | send h => exact ⟨hp.1, by rw [h]; rfl⟩
  | acknowledge h => exact ⟨hp.1, by rw [h]; rfl⟩
  | fail h => exact ⟨hp.1, by rw [h]; rfl⟩
  | stage h => exact ⟨hp.1, by rw [h]; rfl⟩
  | sleep h => exact ⟨hp.1, by rw [h]; rfl⟩
  | finish h =>
    have hphase := hp.2
    unfold Process.finish at hphase
    cases hdirty : (s.processes q).dirty with
    | true =>
      rw [hdirty] at hphase
      cases hphase
    | false => exact ⟨hdirty, by rw [h]; rfl⟩
  | wake h => exact ⟨hp.1, by rw [h]; rfl⟩

theorem inv (h : Progress pub s q p pushes)
    (hp : (s.processes q).Inv pub s.counter s.receivers)
    (hanswered : ∀ a revision, (a, revision) ∈ s.answered → pub.AtLeast s.receivers revision a) :
    p.Inv pub s.counter s.receivers := by
  cases h with
  | read i h =>
    exact {
      clean := fun hidle ↦ nomatch hidle
      le := fun revision hrevision ↦ hp.le revision (by rw [h]; exact hrevision)
      reached := nofun }
  | send h => exact launched_inv (hp.le _ (by rw [h]; rfl)) fun _ a ha ↦ .inl ha
  | @acknowledge revision reads waiting rest failed a h ha =>
    exact {
      clean := fun hidle ↦ nomatch hidle
      le := fun revision hrevision ↦ hp.le revision (by rw [h]; exact hrevision)
      reached := by
        intro revision' reads' waiting' rest' hphase target htarget
        injection hphase with hr hreads hwaiting hrest hfailed
        subst hr hreads hwaiting hrest hfailed
        cases hp.reached _ _ _ _ h target htarget with
        | inl hmem =>
          by_cases heq : target = a
          · exact .inr (.inr (heq ▸ hanswered a revision ha))
          · exact .inl ((mem_erase_of_ne heq).mpr hmem)
        | inr hother => exact .inr hother }
  | fail h =>
    exact {
      clean := fun hidle ↦ nomatch hidle
      le := fun revision hrevision ↦ hp.le revision (by rw [h]; exact hrevision)
      reached := by
        intro revision' reads' waiting' rest' hphase
        injection hphase with _ _ _ _ hfailed
        cases hfailed }
  | @stage revision reads stages failed h =>
    apply launched_inv (hp.le _ (by rw [h]; rfl))
    intro hfailed a ha
    subst hfailed
    cases hp.reached _ _ _ _ h a ha with
    | inl hnil => cases hnil
    | inr hother => exact hother
  | sleep h =>
    exact {
      clean := fun hidle ↦ nomatch hidle
      le := fun revision hrevision ↦ hp.le revision (by rw [h]; exact hrevision)
      reached := nofun }
  | finish h =>
    exact {
      clean := fun _ ↦ rfl
      le := fun revision hrevision ↦ by
        unfold Process.finish at hrevision
        split at hrevision <;> cases hrevision
      reached := fun _ _ _ _ hphase ↦ by
        unfold Process.finish at hphase
        split at hphase <;> cases hphase }
  | wake h => exact launched_inv (hp.le _ (by rw [h]; rfl)) fun _ a ha ↦ .inl ha

theorem agrees (h : Progress pub s q p pushes)
    (hp : (s.processes q).phase.Agrees s.counter (pub.read s.db)) :
    p.phase.Agrees s.counter (pub.read s.db) := by
  cases h with
  | read i h =>
    rw [h] at hp
    intro hrevision j v hv
    by_cases hj : j = i
    · subst hj
      rw [Function.update_self] at hv
      exact (some.inj hv).symm
    · rw [Function.update_of_ne hj] at hv
      exact hp hrevision j v hv
  | send h hreads =>
    rw [h] at hp
    intro hrevision
    funext i
    exact hp hrevision i _ (hreads i)
  | acknowledge h | fail h | stage h | sleep h =>
    rw [h] at hp
    exact hp
  | finish h =>
    unfold Process.finish
    split
    · trivial
    · trivial
  | wake h =>
    rw [h] at hp
    exact hp

/-- A pass that ends with nothing further to do has reached every target. -/
theorem pushed (h : Progress pub s q p pushes) (hsettled : p.Settled)
    (hp : (s.processes q).Inv pub s.counter s.receivers)
    (hagrees : (s.processes q).phase.Agrees s.counter (pub.read s.db))
    (hrevision : (s.processes q).phase.revision? = some s.counter) :
    p.phase.revision? = some s.counter ∨
      ∀ a ∈ pub.targets (pub.read s.db), pub.AtLeast s.receivers s.counter a := by
  have hold := h.settled hsettled
  cases h with
  | read i h => exact .inl (by rw [h] at hrevision; exact hrevision)
  | send h => exact .inl (by rw [h] at hrevision; exact hrevision)
  | acknowledge h => exact .inl (by rw [h] at hrevision; exact hrevision)
  | fail h => exact .inl (by rw [h] at hrevision; exact hrevision)
  | stage h => exact .inl (by rw [h] at hrevision; exact hrevision)
  | sleep h => exact .inl (by rw [h] at hrevision; exact hrevision)
  | @finish revision reads failed h hfailed =>
    have hclean : failed = false := by
      cases failed with
      | false => rfl
      | true => exact absurd (hfailed rfl) (by rw [hold.1]; exact Bool.false_ne_true)
    subst hclean
    rw [h] at hrevision hagrees
    have hcounter : revision = s.counter := some.inj hrevision
    have hreads : reads = pub.read s.db := hagrees hcounter
    apply Or.inr
    intro a ha
    rw [← hreads] at ha
    cases hp.reached _ _ _ _ h a ha with
    | inl hnil => cases hnil
    | inr hother =>
      cases hother with
      | inl hnil => cases hnil
      | inr hreached => exact hcounter ▸ hreached
  | wake h => exact .inl (by rw [h] at hrevision; exact hrevision)

end Progress

end Progress

/-! ## Every step keeps the invariant -/

theorem inv_initial {db : D} (hstored : ∀ a, pub.stored receivers a = none)
    (htargets : pub.targets (pub.read db) = []) :
    (State.initial db receivers : State D A G Q P).Inv pub where
  processes _ := {
    clean := fun _ ↦ rfl
    le := nofun
    reached := nofun }
  distinct _ _ _ h := nomatch h
  sent_le _ h := nomatch h
  stored_sent a stored h := by
    have hnone := hstored a
    rw [show (State.initial db receivers : State D A G Q P).receivers = receivers from rfl] at h
    rw [hnone] at h
    cases h
  answered _ _ h := nomatch h
  current _ _ := {
    agrees := fun _ ↦ trivial
    sent := nofun
    pushed := .inr fun a ha ↦ by
      have hnil : a ∈ pub.targets (pub.read db) := ha
      rw [htargets] at hnil
      cases hnil }

theorem State.Inv.write {s : State D A G Q P} (hI : s.Inv pub) (db : D) :
    ({ s with db, announced := false } : State D A G Q P).Inv pub where
  processes := hI.processes
  distinct := hI.distinct
  sent_le := hI.sent_le
  stored_sent := hI.stored_sent
  answered := hI.answered
  current hannounced := nomatch hannounced

theorem State.Inv.deliver {s : State D A G Q P} (hlaw : pub.Lawful) (hI : s.Inv pub)
    (hpush : push ∈ s.sent) (x : X) : ({ s with
      receivers := (pub.receive push x s.receivers).2
      answered := if (pub.receive push x s.receivers).1 then
          (push.address, push.revision) :: s.answered
        else s.answered } : State D A G Q P).Inv pub := by
  have hmono : ∀ revision a, pub.AtLeast s.receivers revision a →
      pub.AtLeast (pub.receive push x s.receivers).2 revision a :=
    fun _ _ hat ↦ hlaw.atLeast_receive hat
  constructor
  · intro q
    exact (hI.processes q).mono (le_refl s.counter) hmono
  · exact hI.distinct
  · exact hI.sent_le
  · intro a stored hstored
    cases hlaw.stored_receive hstored with
    | inl hold => exact hI.stored_sent a stored hold
    | inr hnew =>
      obtain ⟨-, rfl⟩ := hnew
      exact ⟨push, hpush, rfl, rfl⟩
  · intro a revision hanswered
    cases hanswer : (pub.receive push x s.receivers).1 with
    | false =>
      rw [hanswer] at hanswered
      exact hmono revision a (hI.answered a revision hanswered)
    | true =>
      rw [hanswer] at hanswered
      cases mem_cons.mp hanswered with
      | inl heq =>
        obtain ⟨rfl, rfl⟩ := Prod.mk.inj heq
        unfold Publishing.AtLeast
        rw [hlaw.taken push x s.receivers hanswer]
        exact le_keepNewer _ _ _
      | inr hold => exact hmono revision a (hI.answered a revision hold)
  · intro hannounced hall
    have hcurrent := hI.current hannounced hall
    constructor
    · exact hcurrent.agrees
    · exact hcurrent.sent
    · cases hcurrent.pushed with
      | inl hrunning => exact .inl hrunning
      | inr hreached => exact .inr fun a ha ↦ hmono s.counter a (hreached a ha)

/-- Once every write was followed by a mark and no process has anything left to do, every target of
the present database stores its content. -/
theorem State.Inv.converged {s : State D A G Q P} (hI : s.Inv pub) (hannounced : s.announced)
    (hidle : ∀ q, (s.processes q).phase = .idle) {a : A} (ha : a ∈ pub.targets (pub.read s.db)) :
    pub.stored s.receivers a = some (s.counter, pub.content (pub.read s.db) a) := by
  have hsettled : ∀ q, (s.processes q).Settled := by
    intro q
    exact ⟨(hI.processes q).clean (hidle q), by rw [hidle q]; rfl⟩
  have hcurrent := hI.current hannounced hsettled
  have hreached : pub.AtLeast s.receivers s.counter a := by
    cases hcurrent.pushed with
    | inr hreached => exact hreached a ha
    | inl hrunning =>
      obtain ⟨q, hq⟩ := hrunning
      rw [hidle q] at hq
      cases hq
  obtain ⟨stored, hstored, hle⟩ := hreached
  obtain ⟨push, hpush, hrevision, hcontent⟩ := hI.stored_sent a stored hstored
  have hcounter : stored.1 = s.counter := by
    have hsent := hI.sent_le push hpush
    omega
  have hreads := hcurrent.sent push hpush (hrevision.trans hcounter)
  rw [hstored]
  apply congrArg some
  exact Prod.ext hcounter (by rw [hcontent, hreads])

section Step

variable [DecidableEq Q]

theorem advance_self (s : State D A G Q P) (q : Q) (p : Process A P) (pushes : List (Push A Q P)) :
    (s.advance q p pushes).processes q = p := by
  simp [State.advance]

theorem advance_of_ne {s : State D A G Q P} {q other : Q} {p : Process A P}
    {pushes : List (Push A Q P)} (h : other ≠ q) :
    (s.advance q p pushes).processes other = s.processes other := by
  simp [State.advance, h]

namespace State.Inv

variable {s : State D A G Q P}

/-- The process is then to start another pass, which will read after the mark. -/
theorem markDirty (hI : s.Inv pub) {q : Q} {p : Process A P} (h : ¬ p.Settled)
    (hphase : p.phase = (s.processes q).phase ∨
      p.phase = .revising ∧ (s.processes q).phase = .idle)
    (hidle : p.phase ≠ .idle) : ({ s.advance q p [] with announced := true }).Inv pub := by
  have hrevision : ∀ other revision,
      ((s.advance q p []).processes other).phase.revision? = some revision →
      (s.processes other).phase.revision? = some revision := by
    intro other revision hother
    by_cases heq : other = q
    · subst heq
      rw [advance_self] at hother
      cases hphase with
      | inl hsame => exact hsame ▸ hother
      | inr hrevising =>
        rw [hrevising.1] at hother
        cases hother
    · rw [advance_of_ne heq] at hother
      exact hother
  constructor
  · intro other
    by_cases heq : other = q
    · subst heq
      rw [advance_self]
      cases hphase with
      | inl hsame =>
        have hp := hI.processes other
        exact {
          clean := fun hclean ↦ absurd hclean hidle
          le := fun revision h ↦ hp.le revision (hsame ▸ h)
          reached := fun revision reads waiting rest h ↦
            hp.reached revision reads waiting rest (hsame ▸ h) }
      | inr hrevising =>
        exact {
          clean := fun hclean ↦ absurd hclean hidle
          le := fun revision h ↦ by
            rw [hrevising.1] at h
            cases h
          reached := fun revision reads waiting rest h ↦ by
            rw [hrevising.1] at h
            cases h }
    · rw [advance_of_ne heq]
      exact hI.processes other
  · intro q₁ q₂ revision h₁ h₂
    exact hI.distinct q₁ q₂ revision (hrevision q₁ revision h₁) (hrevision q₂ revision h₂)
  · intro push hpush
    exact hI.sent_le push (by simpa [State.advance] using hpush)
  · intro a stored hstored
    obtain ⟨push, hpush, hof⟩ := hI.stored_sent a stored hstored
    exact ⟨push, mem_append_left [] hpush, hof⟩
  · exact hI.answered
  · intro _ hall
    have hq := hall q
    have hself : (s.advance q p []).processes q = p := advance_self s q p []
    exact absurd (hself ▸ hq) h

/-- The pass that takes a revision reads the database from then on. -/
theorem takeRevision (hI : s.Inv pub) {q : Q} (h : (s.processes q).phase = .revising) :
    ({ s.advance q ⟨(s.processes q).dirty, .reading (s.counter + 1) fun _ ↦ none⟩ [] with
      counter := s.counter + 1 }).Inv pub := by
  have hlt : s.counter < s.counter + 1 := by omega
  have hother : ∀ other revision, other ≠ q →
      ((s.advance q ⟨(s.processes q).dirty, .reading (s.counter + 1) fun _ ↦ none⟩ []).processes
        other).phase.revision? = some revision → revision ≤ s.counter := by
    intro other revision hne hrevision
    rw [advance_of_ne hne] at hrevision
    exact (hI.processes other).le revision hrevision
  have hself : ∀ revision,
      ((s.advance q ⟨(s.processes q).dirty, .reading (s.counter + 1) fun _ ↦ none⟩ []).processes
        q).phase.revision? = some revision → revision = s.counter + 1 := by
    intro revision hrevision
    rw [advance_self] at hrevision
    exact (some.inj hrevision).symm
  constructor
  · intro other
    by_cases heq : other = q
    · subst heq
      rw [advance_self]
      exact {
        clean := fun hclean ↦ nomatch hclean
        le := fun revision hrevision ↦ le_of_eq (some.inj hrevision).symm
        reached := nofun }
    · rw [advance_of_ne heq]
      exact (hI.processes other).mono (le_of_lt hlt) fun _ _ hat ↦ hat
  · intro q₁ q₂ revision h₁ h₂
    by_cases heq₁ : q₁ = q
    · by_cases heq₂ : q₂ = q
      · rw [heq₁, heq₂]
      · have hle := hother q₂ revision heq₂ h₂
        have heq := hself revision (heq₁ ▸ h₁)
        omega
    · by_cases heq₂ : q₂ = q
      · have hle := hother q₁ revision heq₁ h₁
        have heq := hself revision (heq₂ ▸ h₂)
        omega
      · rw [advance_of_ne heq₁] at h₁
        rw [advance_of_ne heq₂] at h₂
        exact hI.distinct q₁ q₂ revision h₁ h₂
  · intro push hpush
    have hle := hI.sent_le push (by simpa [State.advance] using hpush)
    exact le_trans hle (le_of_lt hlt)
  · intro a stored hstored
    obtain ⟨push, hpush, hof⟩ := hI.stored_sent a stored hstored
    exact ⟨push, mem_append_left [] hpush, hof⟩
  · exact hI.answered
  · intro _ _
    constructor
    · intro other
      show ((s.advance q _ []).processes other).phase.Agrees (s.counter + 1) (pub.read s.db)
      by_cases heq : other = q
      · subst heq
        rw [advance_self]
        intro _ i v hv
        cases hv
      · rw [advance_of_ne heq]
        have hle := (hI.processes other).le
        cases hphase : (s.processes other).phase with
        | idle => trivial
        | revising => trivial
        | reading revision | pushing revision | sleeping revision =>
          intro hrevision
          have := hle revision (by rw [hphase]; rfl)
          omega
    · intro push hpush hrevision
      have hle := hI.sent_le push (by simpa [State.advance] using hpush)
      have hrevision : push.revision = s.counter + 1 := hrevision
      omega
    · apply Or.inl
      apply Exists.intro q
      rw [advance_self]
      rfl

theorem progress [DecidableEq A] [DecidableEq ι] (hI : s.Inv pub) {q : Q} {p : Process A P} {pushes : List (Push A Q P)}
    (h : Progress pub s q p pushes) : (s.advance q p pushes).Inv pub := by
  have hp := h.inv (hI.processes q) hI.answered
  have hrevision : ∀ other revision,
      ((s.advance q p pushes).processes other).phase.revision? = some revision →
      (s.processes other).phase.revision? = some revision := by
    intro other revision hother
    by_cases heq : other = q
    · subst heq
      rw [advance_self] at hother
      exact h.revision hother
    · rw [advance_of_ne heq] at hother
      exact hother
  have hsettled : (∀ other, ((s.advance q p pushes).processes other).Settled) →
      p.Settled ∧ ∀ other, (s.processes other).Settled := by
    intro hall
    have hq : p.Settled := advance_self s q p pushes ▸ hall q
    apply And.intro hq
    intro other
    by_cases heq : other = q
    · subst heq
      exact h.settled hq
    · have hother := hall other
      rw [advance_of_ne heq] at hother
      exact hother
  constructor
  · intro other
    by_cases heq : other = q
    · subst heq
      rw [advance_self]
      exact hp
    · rw [advance_of_ne heq]
      exact hI.processes other
  · intro q₁ q₂ revision h₁ h₂
    exact hI.distinct q₁ q₂ revision (hrevision q₁ revision h₁) (hrevision q₂ revision h₂)
  · intro push hpush
    cases mem_append.mp hpush with
    | inl hold => exact hI.sent_le push hold
    | inr hnew =>
      obtain ⟨waiting, rest, failed, hphase⟩ := h.pushes_of hnew
      exact hp.le push.revision (by rw [hphase]; rfl)
  · intro a stored hstored
    obtain ⟨push, hpush, hof⟩ := hI.stored_sent a stored hstored
    exact ⟨push, mem_append_left pushes hpush, hof⟩
  · exact hI.answered
  · intro hannounced hall
    obtain ⟨hq, hold⟩ := hsettled hall
    have hcurrent := hI.current hannounced hold
    have hagrees := h.agrees (hcurrent.agrees q)
    constructor
    · intro other
      by_cases heq : other = q
      · subst heq
        rw [advance_self]
        exact hagrees
      · rw [advance_of_ne heq]
        exact hcurrent.agrees other
    · intro push hpush hcounter
      cases mem_append.mp hpush with
      | inl hold => exact hcurrent.sent push hold hcounter
      | inr hnew =>
        obtain ⟨waiting, rest, failed, hphase⟩ := h.pushes_of hnew
        rw [hphase] at hagrees
        exact hagrees hcounter
    · cases hcurrent.pushed with
      | inr hreached => exact .inr hreached
      | inl hrunning =>
        obtain ⟨other, hother⟩ := hrunning
        by_cases heq : other = q
        · subst heq
          cases h.pushed hq (hI.processes other) (hcurrent.agrees other) hother with
          | inl hp => exact .inl ⟨other, by rw [advance_self]; exact hp⟩
          | inr hreached => exact .inr hreached
        · exact .inl ⟨other, by rw [advance_of_ne heq]; exact hother⟩

end State.Inv

variable [DecidableEq A] [DecidableEq ι] [Fintype ι]

theorem inv_step (hlaw : pub.Lawful) {s : State D A G Q P} {action : Action D A X Q ι}
    (hI : s.Inv pub) (h : step pub s action = some s') : s'.Inv pub := by
  cases step_effect h with
  | write db => exact hI.write db
  | markDirty q p hunsettled hphase hidle => exact hI.markDirty hunsettled hphase hidle
  | takeRevision q hphase => exact hI.takeRevision hphase
  | progress q p pushes hprogress => exact hI.progress hprogress
  | deliver push x hpush => exact hI.deliver hlaw hpush x

theorem Run.inv (hlaw : pub.Lawful) {s : State D A G Q P} (h : Run pub s s') (hI : s.Inv pub) :
    s'.Inv pub := by
  induction h with
  | start => exact hI
  | step _ action hstep ih => exact inv_step hlaw ih hstep

end Step

end Replication
