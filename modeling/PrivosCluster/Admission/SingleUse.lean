import Mathlib.Data.Int.ConditionallyCompleteOrder
import Mathlib.Data.List.Basic
import Mathlib.Order.Basic

/-!
# Keys that are admitted once

A guard admits an event only when the key of the event is not held, and from then on holds the key
until a deadline. It may forget a key once the deadline is due. Of two events with one key that a
guard admits, the deadline of the first is therefore due at the time of the second.
-/

namespace SingleUse

open List

variable {σ ε κ δ τ : Type}

/-- A guard over states `σ`: what it does at an event, and which keys it holds until when. -/
structure Guard (σ ε κ δ τ : Type) where
  step : σ → ε → Bool → σ → Prop
  time : ε → τ
  key : ε → κ
  deadline : ε → δ
  held : σ → κ → δ → Prop
  due : τ → δ → Prop

/-- The guard forgets no key before its deadline, and admits no key that it holds. -/
structure Guard.Lawful [Preorder τ] (guard : Guard σ ε κ δ τ) : Prop where
  due_mono {t t' : τ} {d : δ} : t ≤ t' → guard.due t d → guard.due t' d
  keeps {s s' : σ} {e : ε} {admitted : Bool} {k : κ} {d : δ} : guard.step s e admitted s' →
    guard.held s k d → ¬ guard.due (guard.time e) d → guard.held s' k d
  holds {s s' : σ} {e : ε} : guard.step s e true s' → guard.held s' (guard.key e) (guard.deadline e)
  refuses {s s' : σ} {e : ε} {d : δ} : guard.step s e true s' → guard.held s (guard.key e) d →
    guard.due (guard.time e) d

/-- Events in order, each with the answer of the guard. -/
inductive Guard.Run (guard : Guard σ ε κ δ τ) (s : σ) : List (ε × Bool) → σ → Prop where
  | start : Run guard s [] s
  | step {events : List (ε × Bool)} {s' s'' : σ} {e : ε} {admitted : Bool}
      (run : Run guard s events s') (last : guard.step s' e admitted s'') :
      Run guard s (events ++ [(e, admitted)]) s''

theorem Guard.Run.head {guard : Guard σ ε κ δ τ} {s s' s'' : σ} {e : ε} {admitted : Bool}
    {events : List (ε × Bool)} (first : guard.step s e admitted s')
    (run : guard.Run s' events s'') : guard.Run s ((e, admitted) :: events) s'' := by
  induction run with
  | start => exact .step .start first
  | step _ last ih => exact .step ih last

/-- The clock does not go back. -/
def Guard.Ordered [Preorder τ] (guard : Guard σ ε κ δ τ) (events : List (ε × Bool)) : Prop :=
  events.Pairwise fun a b ↦ guard.time a.1 ≤ guard.time b.1

section Rules

variable [Preorder τ] {guard : Guard σ ε κ δ τ} {s s' : σ} {events : List (ε × Bool)}

/-- What was admitted is still held, unless an event came when its deadline was due. -/
theorem Guard.Run.held_or_due (lawful : guard.Lawful) (run : guard.Run s events s') :
    ∀ a ∈ events, a.2 →
      guard.held s' (guard.key a.1) (guard.deadline a.1) ∨
        ∃ b ∈ events, guard.due (guard.time b.1) (guard.deadline a.1) := by
  induction run with
  | start => exact nofun
  | @step events s' s'' e admitted _ last ih =>
    intro a ha hadmitted
    obtain ha | ha := mem_append.mp ha
    · by_cases hdue : guard.due (guard.time e) (guard.deadline a.1)
      · exact .inr ⟨(e, admitted), by simp, hdue⟩
      · obtain hheld | ⟨b, hb, hb'⟩ := ih a ha hadmitted
        · exact .inl (lawful.keeps last hheld hdue)
        · exact .inr ⟨b, mem_append_left _ hb, hb'⟩
    · have ha' : a = (e, admitted) := mem_singleton.mp ha
      subst ha'
      have hadmitted' : admitted := hadmitted
      subst hadmitted'
      exact .inl (lawful.holds last)

/-- Of two admitted events with one key, the deadline of the first is due at the second. -/
theorem Guard.Run.due_of_readmitted (lawful : guard.Lawful) (run : guard.Run s events s')
    (ordered : guard.Ordered events) :
    events.Pairwise fun a b ↦ a.2 → b.2 → guard.key a.1 = guard.key b.1 →
      guard.due (guard.time b.1) (guard.deadline a.1) := by
  induction run with
  | start => exact .nil
  | @step events s' s'' e admitted run last ih =>
    have hordered := pairwise_append.mp ordered
    apply pairwise_append.mpr
    refine ⟨ih hordered.1, pairwise_singleton _ _, ?_⟩
    intro a ha b hb hadmitted hagain hkey
    have hb' : b = (e, admitted) := mem_singleton.mp hb
    subst hb'
    have hagain' : admitted := hagain
    subst hagain'
    obtain hheld | ⟨c, hc, hdue⟩ := run.held_or_due lawful a ha hadmitted
    · rw [hkey] at hheld
      exact lawful.refuses last hheld
    · have hle := hordered.2.2 c hc (e, true) (mem_singleton_self _)
      exact lawful.due_mono hle hdue

end Rules

/-! ## Guards that hold no more than they admitted -/

/-- The guard refuses a good event only because it holds its key, and holds what it admitted. -/
structure Guard.Exact [Preorder τ] (guard : Guard σ ε κ δ τ) (good : ε → Prop) : Prop
    extends guard.Lawful where
  good_of_admitted {s s' : σ} {e : ε} : guard.step s e true s' → good e
  admitted_of_held {s s' : σ} {e : ε} {admitted : Bool} {k : κ} {d : δ} :
    guard.step s e admitted s' → guard.held s' k d →
      guard.held s k d ∨ admitted = true ∧ guard.key e = k ∧ guard.deadline e = d
  held_of_refused {s s' : σ} {e : ε} : guard.step s e false s' → good e →
    ∃ d, guard.held s (guard.key e) d ∧ ¬ guard.due (guard.time e) d

/-- No key is admitted twice. -/
def Guard.Once (guard : Guard σ ε κ δ τ) (events : List (ε × Bool)) : Prop :=
  events.Pairwise fun a b ↦ a.2 = true → b.2 = true → guard.key a.1 ≠ guard.key b.1

/-- Every later good event with the key of the first one comes before the deadline of that one. -/
def Guard.InTime (guard : Guard σ ε κ δ τ) (good : ε → Prop) (events : List ε) : Prop :=
  ∀ before a between b after, events = before ++ a :: (between ++ b :: after) → good a → good b →
    guard.key a = guard.key b → (∀ c ∈ before, good c → guard.key c ≠ guard.key a) →
      ¬ guard.due (guard.time b) (guard.deadline a)

variable {a : ε × Bool} {after before : List (ε × Bool)} {seen : κ × δ}

theorem Guard.Run.split {guard : Guard σ ε κ δ τ} {s s' : σ}
    (run : guard.Run s (before ++ a :: after) s') :
    ∃ s₁ s₂, guard.Run s before s₁ ∧ guard.step s₁ a.1 a.2 s₂ := by
  generalize hevents : before ++ a :: after = events at run
  induction run generalizing after with
  | start => simp at hevents
  | @step events s' s'' e admitted run last ih =>
    obtain rfl | ⟨after', b, rfl⟩ := eq_nil_or_concat after
    · obtain ⟨rfl, rfl⟩ := append_inj' hevents rfl |>.imp id singleton_inj.mp
      exact ⟨s', s'', run, last⟩
    · have hsplit : (before ++ a :: after') ++ [b] = events ++ [(e, admitted)] := by
        simpa using hevents
      exact ih (append_inj' hsplit rfl).1

section Exact

variable [Preorder τ] {guard : Guard σ ε κ δ τ} {good : ε → Prop} {s s' : σ}
  {events : List (ε × Bool)}

theorem Guard.Run.admitted_of_held (exact : guard.Exact good) (run : guard.Run s events s')
    (hempty : ∀ k d, ¬ guard.held s k d) {k : κ} {d : δ} (hheld : guard.held s' k d) :
    ∃ a ∈ events, a.2 ∧ guard.key a.1 = k ∧ guard.deadline a.1 = d := by
  induction run with
  | start => exact absurd hheld (hempty k d)
  | step run last ih =>
    obtain hheld | ⟨hadmitted, hkey, hdeadline⟩ := exact.admitted_of_held last hheld
    · obtain ⟨a, ha, hrest⟩ := ih hheld
      exact ⟨a, mem_append_left _ ha, hrest⟩
    · exact ⟨_, mem_append_right _ (mem_singleton_self _), hadmitted, hkey, hdeadline⟩

/-- An event whose key was not admitted before is admitted when it is good. -/
theorem Guard.Run.admits_first (exact : guard.Exact good) (hempty : ∀ k d, ¬ guard.held s k d)
    (run : guard.Run s (before ++ a :: after) s') (hgood : good a.1)
    (hfirst : ∀ c ∈ before, c.2 → guard.key c.1 ≠ guard.key a.1) : a.2 := by
  obtain ⟨s₁, s₂, hbefore, hstep⟩ := run.split
  by_contra hrefused
  rw [Bool.not_eq_true] at hrefused
  rw [hrefused] at hstep
  obtain ⟨d, hheld, -⟩ := exact.held_of_refused hstep hgood
  obtain ⟨c, hc, hadmitted, hkey, -⟩ := hbefore.admitted_of_held exact hempty hheld
  exact hfirst c hc hadmitted hkey

theorem Guard.Run.good_of_admitted (exact : guard.Exact good) (run : guard.Run s events s') :
    ∀ a ∈ events, a.2 → good a.1 := by
  induction run with
  | start => exact nofun
  | @step events s' s'' e admitted _ last ih =>
    intro a ha hadmitted
    obtain ha | ha := mem_append.mp ha
    · exact ih a ha hadmitted
    · obtain rfl := mem_singleton.mp ha
      have hadmitted' : admitted := hadmitted
      rw [hadmitted'] at last
      exact exact.good_of_admitted last

/-- The first element of a list with a property. -/
theorem exists_first {α : Type} {P : α → Prop} {l : List α} (h : ∃ x ∈ l, P x) :
    ∃ before x after, l = before ++ x :: after ∧ P x ∧ ∀ c ∈ before, ¬ P c := by
  classical
  obtain ⟨x, hx⟩ : ∃ x, l.find? (fun c ↦ decide (P c)) = some x := by
    apply Option.isSome_iff_exists.mp
    obtain ⟨x, hx, hP⟩ := h
    exact find?_isSome.mpr ⟨x, hx, decide_eq_true hP⟩
  obtain ⟨hP, before, after, rfl, hbefore⟩ := find?_eq_some_iff_append.mp hx
  exact ⟨before, x, after, rfl, of_decide_eq_true hP, by simpa using hbefore⟩

theorem pairwise_of_splits {α : Type} {R : α → α → Prop} {l : List α}
    (h : ∀ before a between b after, l = before ++ a :: (between ++ b :: after) → R a b) :
    l.Pairwise R := by
  induction l with
  | nil => exact .nil
  | cons x l ih =>
    constructor
    · intro b hb
      obtain ⟨between, after, rfl⟩ := append_of_mem hb
      exact h [] x between b after rfl
    · apply ih
      intro before a between b after hsplit
      exact h (x :: before) a between b after (by rw [hsplit, cons_append])

/-- An exact guard that starts empty admits no key twice exactly when later good events with a key
come before the deadline of the first. -/
theorem Guard.Run.once_iff (exact : guard.Exact good) (hempty : ∀ k d, ¬ guard.held s k d)
    (run : guard.Run s events s') (ordered : guard.Ordered events) :
    guard.Once events ↔ guard.InTime good (events.map Prod.fst) := by
  have hgood := run.good_of_admitted exact
  have hdue := run.due_of_readmitted exact.toLawful ordered
  constructor
  · intro honce before a between b after hsplit hgooda hgoodb hkey hfirst
    obtain ⟨before, fromA, rfl, rfl, hfromA⟩ := map_eq_append_iff.mp hsplit
    obtain ⟨a, afterA, rfl, rfl, hafterA⟩ := map_eq_cons_iff.mp hfromA
    obtain ⟨between, fromB, rfl, rfl, hfromB⟩ := map_eq_append_iff.mp hafterA
    obtain ⟨b, after, rfl, rfl, -⟩ := map_eq_cons_iff.mp hfromB
    have hfirst' : ∀ c ∈ before, c.2 → guard.key c.1 ≠ guard.key a.1 := by
      intro c hc hadmitted
      exact hfirst c.1 (List.mem_map_of_mem hc) (hgood c (mem_append_left _ hc) hadmitted)
    have hadmitted : a.2 := run.admits_first exact hempty hgooda hfirst'
    have hafter := (pairwise_append.mp honce).2.1
    have hapart := (pairwise_cons.mp hafter).1
    have hrefused : b.2 = false := by
      by_contra hb
      rw [Bool.not_eq_false] at hb
      exact hapart b (by simp) hadmitted hb hkey
    have hsplit' : before ++ a :: (between ++ b :: after) = (before ++ a :: between) ++ b :: after := by
      simp
    rw [hsplit'] at run
    obtain ⟨s₁, s₂, hrun, hstep⟩ := run.split
    rw [hrefused] at hstep
    obtain ⟨d, hheld, hnot⟩ := exact.held_of_refused hstep hgoodb
    obtain ⟨c, hc, hadmittedc, hkeyc, rfl⟩ := hrun.admitted_of_held exact hempty hheld
    obtain hc | hc := mem_append.mp hc
    · exact absurd (hkeyc.trans hkey.symm) (hfirst' c hc hadmittedc)
    · obtain rfl | hc := mem_cons.mp hc
      · exact hnot
      · exact absurd (hkey.trans hkeyc.symm)
          (hapart c (mem_append_left _ hc) hadmitted hadmittedc)
  · intro hintime
    apply pairwise_of_splits
    rintro before a between b after rfl hadmitted hadmittedb hkey
    have hdueb : guard.due (guard.time b.1) (guard.deadline a.1) := by
      have hafter := (pairwise_append.mp hdue).2.1
      exact (pairwise_cons.mp hafter).1 b (by simp) hadmitted hadmittedb hkey
    -- The first good event with the key was admitted, and it is this one or an earlier one.
    obtain ⟨first, f, rest, hfirst, ⟨hgoodf, hkeyf⟩, hbefore⟩ :=
      exists_first (P := fun c ↦ good c.1 ∧ guard.key c.1 = guard.key a.1)
        (l := before ++ [a]) ⟨a, by simp, hgood a (by simp) hadmitted, rfl⟩
    have hnew : ∀ c ∈ first.map Prod.fst, good c → guard.key c ≠ guard.key a.1 := by
      intro c hc hgoodc hkeyc
      obtain ⟨c', hc', rfl⟩ := List.mem_map.mp hc
      exact hbefore c' hc' ⟨hgoodc, hkeyc⟩
    obtain rfl | ⟨middle, a', rfl⟩ := eq_nil_or_concat rest
    · obtain ⟨rfl, hsame⟩ := append_inj' hfirst rfl
      obtain rfl := singleton_inj.mp hsame
      refine hintime (before.map Prod.fst) a.1 (between.map Prod.fst) b.1 (after.map Prod.fst)
        (by simp) hgoodf (hgood b (by simp) hadmittedb) hkey ?_ hdueb
      exact hnew
    · have hsplit : before ++ [a] = (first ++ f :: middle) ++ [a'] := by simpa using hfirst
      obtain ⟨rfl, hsame⟩ := append_inj' hsplit rfl
      have hevents : (first ++ f :: middle) ++ a :: (between ++ b :: after) =
          first ++ f :: (middle ++ a :: (between ++ b :: after)) := by simp
      have hadmittedf : f.2 = true := by
        rw [hevents] at run
        apply run.admits_first exact hempty hgoodf
        intro c hc hadmittedc hkeyc
        have hc' : c ∈ (first ++ f :: middle) ++ a :: (between ++ b :: after) := by
          rw [hevents]
          exact mem_append_left _ hc
        exact hbefore c hc ⟨hgood c hc' hadmittedc, hkeyc.trans hkeyf⟩
      have hduef : guard.due (guard.time a.1) (guard.deadline f.1) := by
        rw [hevents] at hdue
        have hafter := (pairwise_append.mp hdue).2.1
        exact (pairwise_cons.mp hafter).1 a (by simp) hadmittedf hadmitted hkeyf
      refine hintime (first.map Prod.fst) f.1 (middle.map Prod.fst) a.1
        ((between ++ b :: after).map Prod.fst) (by simp) hgoodf (hgood a (by simp) hadmitted) hkeyf
        ?_ hduef
      intro c hc hgoodc
      rw [hkeyf]
      exact hnew c hc hgoodc

end Exact

/-! ## Guards with a list for memory -/

section Memory

variable [DecidableEq κ] (alive : τ → δ → Bool)

/-- Forget what is no longer alive, refuse a key that is left, and remember a new one. -/
def check (memory : List (κ × δ)) (key : κ) (now : τ) (expiry : δ) : Bool × List (κ × δ) :=
  let left := memory.filter fun seen ↦ alive now seen.2
  if left.any fun seen ↦ seen.1 = key then (false, left) else (true, left ++ [(key, expiry)])

variable {alive} {memory : List (κ × δ)} {key : κ} {now : τ} {expiry : δ}

theorem mem_check (hseen : seen ∈ memory) (halive : alive now seen.2 = true) :
    seen ∈ (check alive memory key now expiry).2 := by
  have hleft : seen ∈ memory.filter fun seen ↦ alive now seen.2 :=
    mem_filter.mpr ⟨hseen, halive⟩
  simp only [check]
  split
  · exact hleft
  · exact mem_append_left _ hleft

theorem mem_check_of_admitted (h : (check alive memory key now expiry).1 = true) :
    (key, expiry) ∈ (check alive memory key now expiry).2 := by
  simp only [check] at h ⊢
  split
  next hany => simp [hany] at h
  · exact mem_append_right _ (mem_singleton_self _)

theorem not_alive_of_admitted (h : (check alive memory key now expiry).1 = true) {d : δ}
    (hmem : (key, d) ∈ memory) : alive now d = false := by
  by_contra halive
  have halive' : alive now d = true := by simpa using halive
  have hleft : (key, d) ∈ memory.filter fun seen ↦ alive now seen.2 :=
    mem_filter.mpr ⟨hmem, halive'⟩
  have hany : (memory.filter fun seen ↦ alive now seen.2).any (fun seen ↦ seen.1 = key) = true :=
    List.any_eq_true.mpr ⟨(key, d), hleft, by simp⟩
  simp [check, hany] at h

theorem mem_of_check (h : seen ∈ (check alive memory key now expiry).2) :
    seen ∈ memory ∨ (check alive memory key now expiry).1 = true ∧ seen = (key, expiry) := by
  simp only [check] at h ⊢
  split at h
  · exact .inl (mem_filter.mp h).1
  next hany =>
    rw [if_neg hany]
    obtain h | h := mem_append.mp h
    · exact .inl (mem_filter.mp h).1
    · exact .inr ⟨rfl, mem_singleton.mp h⟩

theorem mem_of_refused (h : (check alive memory key now expiry).1 = false) :
    ∃ d, (key, d) ∈ memory ∧ alive now d = true := by
  simp only [check] at h
  split at h
  next hany =>
    obtain ⟨⟨k, d⟩, hseen, hkey⟩ := List.any_eq_true.mp hany
    obtain ⟨hmem, halive⟩ := mem_filter.mp hseen
    obtain rfl : k = key := by simpa using hkey
    exact ⟨d, hmem, halive⟩
  · cases h

end Memory

end SingleUse
