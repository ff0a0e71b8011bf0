import Mathlib.Algebra.GroupWithZero.Nat
import PrivosCluster.AsyncProgram.Discipline

/-!
# Interleavings of programs

Any number of programs run over one state. A schedule picks the thread that makes its next
call, so threads may be interleaved at every await. What one thread read before a call of
another may be stale when it acts on it. The rule at the end of this file bounds the damage:
a condition that no thread destroys by acting on what it read inside it is destroyed only by
a thread that looked before the condition held.
-/

namespace AsyncProgram

open List Function

variable {σ : Signature} {ε S X ι α β : Type}

/-- Two threads are numbered by `Fin 2`. -/
instance neZeroTwo : NeZero 2 := ⟨by decide⟩

structure Pool (σ : Signature) (ε S ι : Type) where
  threads : ι → Program σ ε Unit
  state : S

/-- One call of one thread, with the choice the environment made at it. -/
structure Event (σ : Signature) (X ι : Type) where
  thread : ι
  call : σ.Call
  choice : X

variable {e : Event σ X ι} {after before : List (Event σ X ι)} {pool₁ pool₂ : Pool σ ε S ι}
  {p' : Program σ ε α} {f : α → Program σ ε β} {rest : Program σ ε Unit}

namespace Pool

variable [DecidableEq ι] {m : Machine σ ε S X}

inductive Step (m : Machine σ ε S X) : Pool σ ε S ι → Event σ X ι → Pool σ ε S ι → Prop where
  | call {pool : Pool σ ε S ι} {i : ι} {c : σ.Call} {x : X}
      {k : Except ε (σ.Answer c) → Program σ ε Unit} (next : pool.threads i = .call c k)
      (permitted : m.permits c x pool.state) :
      Step m pool ⟨i, c, x⟩
        ⟨Function.update pool.threads i (k (m.respond c x pool.state).1),
          (m.respond c x pool.state).2⟩

inductive Run (m : Machine σ ε S X) (pool : Pool σ ε S ι) :
    List (Event σ X ι) → Pool σ ε S ι → Prop where
  | start : Run m pool [] pool
  | step {events : List (Event σ X ι)} {pool' pool'' : Pool σ ε S ι} {e : Event σ X ι}
      (run : Run m pool events pool') (last : Step m pool' e pool'') :
      Run m pool (events ++ [e]) pool''

/-- The run of a schedule, as far as the environment's policy is permitted. -/
def play (m : Machine σ ε S X) [∀ c x s, Decidable (m.permits c x s)]
    (policy : σ.Call → S → X) :
    List ι → Pool σ ε S ι → List (Event σ X ι) × Pool σ ε S ι
  | [], pool => ([], pool)
  | i :: schedule, pool =>
    match pool.threads i with
    | .pure _ => play m policy schedule pool
    | .throw _ => play m policy schedule pool
    | .call c k =>
      let x := policy c pool.state
      if m.permits c x pool.state then
        let rest := play m policy schedule
          ⟨Function.update pool.threads i (k (m.respond c x pool.state).1),
            (m.respond c x pool.state).2⟩
        (⟨i, c, x⟩ :: rest.1, rest.2)
      else play m policy schedule pool

variable {pool : Pool σ ε S ι}

/-- In a played run the environment chooses by its policy. -/
theorem choice_of_play [∀ c x s, Decidable (m.permits c x s)] {policy : σ.Call → S → X}
    {schedule : List ι} (h : e ∈ (play m policy schedule pool).1) :
    ∃ s, e.choice = policy e.call s := by
  induction schedule generalizing pool with
  | nil => cases h
  | cons i schedule ih =>
    unfold play at h
    split at h
    · exact ih h
    · exact ih h
    next c k hnext =>
      dsimp only at h
      split at h
      · obtain rfl | h := mem_cons.mp h
        · exact ⟨pool.state, rfl⟩
        · exact ih h
      · exact ih h

variable {pool' : Pool σ ε S ι}

/-- What a step does: the thread goes on with the answer, and the others wait. -/
theorem Step.inv (step : Step m pool e pool') :
    ∃ k, pool.threads e.thread = .call e.call k ∧ m.permits e.call e.choice pool.state ∧
      pool'.threads e.thread = k (m.respond e.call e.choice pool.state).1 ∧
      (∀ i, i ≠ e.thread → pool'.threads i = pool.threads i) ∧
      pool'.state = (m.respond e.call e.choice pool.state).2 := by
  obtain ⟨hnext, hx⟩ := step
  exact ⟨_, hnext, hx, update_self _ _ _, fun _ hi ↦ update_of_ne hi _ _, rfl⟩

variable {events : List (Event σ X ι)}

theorem Run.head {pool'' : Pool σ ε S ι} (first : Step m pool e pool')
    (run : Run m pool' events pool'') : Run m pool (e :: events) pool'' := by
  induction run with
  | start => exact .step .start first
  | step _ last ih => exact .step ih last

/-- A run passed through a pool after each of its events, and went on from there. -/
theorem Run.split (run : Run m pool events pool') (hsplit : events = before ++ after) :
    ∃ pool₁, Run m pool before pool₁ ∧ Run m pool₁ after pool' := by
  induction run generalizing after with
  | start =>
    obtain ⟨rfl, rfl⟩ := append_eq_nil_iff.mp hsplit.symm
    exact ⟨pool, .start, .start⟩
  | @step events pool' pool'' e run last ih =>
    obtain rfl | ⟨after, e', rfl⟩ := eq_nil_or_concat after
    · rw [append_nil] at hsplit
      exact ⟨pool'', hsplit ▸ .step run last, .start⟩
    · rw [concat_eq_append, ← append_assoc] at hsplit
      obtain ⟨pool₁, run₁, run₂⟩ := ih (append_inj_left' hsplit rfl)
      obtain rfl : e = e' := by simpa using append_inj_right' hsplit rfl
      rw [concat_eq_append]
      exact ⟨pool₁, run₁, .step run₂ last⟩

theorem Run.upTo (run : Run m pool events pool') (hsplit : events = before ++ after) :
    ∃ pool₁, Run m pool before pool₁ := by
  obtain ⟨pool₁, run₁, -⟩ := run.split hsplit
  exact ⟨pool₁, run₁⟩

theorem Run.append (run₁ : Run m pool before pool₁) (run₂ : Run m pool₁ after pool₂) :
    Run m pool (before ++ after) pool₂ := by
  induction run₂ with
  | start => simpa using run₁
  | step _ last ih =>
    rw [← append_assoc]
    exact .step ih last

theorem Run.eq_of_nil (run : Run m pool events pool') (hnil : events = []) : pool' = pool := by
  cases run with
  | start => rfl
  | step => simp at hnil

/-- A run of one event is a step. -/
theorem Run.single (run : Run m pool events pool') (hsingle : events = [e]) :
    Step m pool e pool' := by
  cases run with
  | start => simp at hsingle
  | step run last =>
    obtain ⟨hnil, hlast⟩ := (append_eq_singleton_iff.mp hsingle).resolve_right (by simp)
    rw [run.eq_of_nil hnil, singleton_inj.mp hlast] at last
    exact last

/-- What every event of a run keeps holds after it. -/
theorem Run.retains {I : S → Prop} (run : Run m pool events pool')
    (hkeep : ∀ e ∈ events, ∀ s, m.permits e.call e.choice s → I s →
      I (m.respond e.call e.choice s).2) (hI : I pool.state) : I pool'.state := by
  induction run with
  | start => exact hI
  | @step events pool' pool'' e _ last ih =>
    have hbefore := ih fun e he ↦ hkeep e (mem_append_left _ he)
    have hlast := hkeep e (by simp)
    obtain ⟨hnext, hx⟩ := last
    exact hlast _ hx hbefore

theorem run_play [∀ c x s, Decidable (m.permits c x s)] (policy : σ.Call → S → X)
    (schedule : List ι) (pool : Pool σ ε S ι) :
    Run m pool (play m policy schedule pool).1 (play m policy schedule pool).2 := by
  induction schedule generalizing pool with
  | nil => exact .start
  | cons i schedule ih =>
    unfold play
    split
    · exact ih pool
    · exact ih pool
    next c k hnext =>
      by_cases hx : m.permits c (policy c pool.state) pool.state
      · simp only [hx, if_true]
        exact .head (.call hnext hx) (ih _)
      · simpa only [hx, if_false] using ih pool

end Pool

/-! ## A thread on its own -/

/-- A program makes these calls, with these choices, and has the rest of it left to do. -/
inductive Advances (m : Machine σ ε S X) :
    Program σ ε α → S → List (σ.Call × X) → Program σ ε α → S → Prop
  | refl {p : Program σ ε α} {s : S} : Advances m p s [] p s
  | step {c : σ.Call} {k : Except ε (σ.Answer c) → Program σ ε α} {s s' : S}
      {calls : List (σ.Call × X)} {rest : Program σ ε α} (x : X) (permitted : m.permits c x s)
      (onwards : Advances m (k (m.respond c x s).1) (m.respond c x s).2 calls rest s') :
      Advances m (.call c k) s ((c, x) :: calls) rest s'

variable {c : σ.Call} {answer : Except ε (σ.Answer c)}

namespace Advances

variable {m : Machine σ ε S X} {s s' s'' : S} {calls calls' : List (σ.Call × X)}

variable {p : Program σ ε α}

theorem trans {p'' : Program σ ε α} (h : Advances m p s calls p' s')
    (h' : Advances m p' s' calls' p'' s'') : Advances m p s (calls ++ calls') p'' s'' := by
  induction h with
  | refl => exact h'
  | step x hx _ ih => exact .step x hx (ih h')

theorem bind (h : Advances m p s calls p' s') (f : α → Program σ ε β) :
    Advances m (p >>= f) s calls (p' >>= f) s' := by
  induction h with
  | refl => exact .refl
  | step x hx _ ih => exact .step x hx ih

/-- The first half of a sequence returns. -/
theorem andThen {a : α} {rest : Program σ ε β} (h : Advances m p s calls (.pure a) s')
    (hf : Advances m (f a) s' calls' rest s'') :
    Advances m (p >>= f) s (calls ++ calls') rest s'' :=
  (h.bind f).trans hf

/-- The first half of a sequence throws. -/
theorem fails {e : ε} (h : Advances m p s calls (.throw e) s') :
    Advances m (p >>= f) s calls (.throw e) s' :=
  h.bind f

theorem settle (h : Advances m p s calls p' s') : Advances m p.settle s calls p'.settle s' := by
  induction h with
  | refl => exact .refl
  | step x hx _ ih => exact .step x hx ih

theorem ask (x : X) (hx : m.permits c x s) (hanswer : m.respond c x s = (answer, s')) :
    Advances m (Program.ask c) s [(c, x)] (Program.ofExcept answer) s' := by
  apply Advances.step x hx
  rw [hanswer]
  cases answer <;> exact .refl

theorem settle_ask (x : X) (hx : m.permits c x s) (hanswer : m.respond c x s = (answer, s')) :
    Advances m (Program.ask c).settle s [(c, x)] (.pure answer) s' := by
  have hsettled := (ask x hx hanswer).settle
  cases answer <;> exact hsettled

/-- A thread advances while the others wait. -/
theorem run [DecidableEq ι] {pool : Pool σ ε S ι} {i : ι} {p : Program σ ε Unit}
    (h : Advances m p s calls rest s') (hthread : pool.threads i = p) (hstate : pool.state = s) :
    Pool.Run m pool (calls.map fun c ↦ ⟨i, c.1, c.2⟩)
      ⟨Function.update pool.threads i rest, s'⟩ := by
  induction h generalizing pool with
  | refl =>
    subst hthread hstate
    rw [update_eq_self]
    exact .start
  | @step c k s s' calls rest x hx _ ih =>
    subst hstate
    refine .head (.call hthread hx) ?_
    have hnext := @ih ⟨Function.update pool.threads i (k (m.respond c x pool.state).1),
      (m.respond c x pool.state).2⟩ (update_self _ _ _) rfl
    rwa [update_idem] at hnext

/-- A run goes on with one of its threads. -/
theorem onwards [DecidableEq ι] {pool : Pool σ ε S ι} {events : List (Event σ X ι)} {i : ι}
    {p : Program σ ε Unit} (h : Advances m p s calls rest s') (run : Pool.Run m pool events pool₁)
    (hthread : pool₁.threads i = p) (hstate : pool₁.state = s) :
    ∃ pool₂, Pool.Run m pool (events ++ calls.map fun c ↦ ⟨i, c.1, c.2⟩) pool₂ ∧
      pool₂.threads i = rest ∧ (∀ j, j ≠ i → pool₂.threads j = pool₁.threads j) ∧
      pool₂.state = s' :=
  ⟨_, run.append (h.run hthread hstate), update_self _ _ _,
    fun _ hj ↦ update_of_ne hj _ _, rfl⟩

end Advances

section Threads

variable [DecidableEq ι] {m : Machine σ ε S X} {D : Discipline σ S} {F : S → S → Prop}
  {A I : S → Prop} {pool pool' : Pool σ ε S ι} {events : List (Event σ X ι)}

theorem Pool.Step.meets (step : Pool.Step m pool e pool') (hassume : ∀ c, D.assumes c pool.state)
    (hthreads : ∀ i, Meets m D (fun _ ↦ True) (pool.threads i)) :
    D.ensures pool.state pool'.state ∧ ∀ i, Meets m D (fun _ ↦ True) (pool'.threads i) := by
  obtain ⟨hnext, hx⟩ := step
  rename_i i c x k
  have hi := hthreads i
  rw [hnext] at hi
  obtain ⟨hensures, hrest⟩ := hi x _ (hassume c) hx
  refine ⟨hensures, fun j ↦ ?_⟩
  by_cases hij : j = i
  · subst hij
    simpa using hrest
  · simpa [update_of_ne hij] using hthreads j

/-- Threads that stay inside a frame stay inside it together. -/
theorem Pool.Run.frame (run : Pool.Run m pool events pool') (hrefl : ∀ s, F s s)
    (htrans : ∀ s s' s'', F s s' → F s' s'' → F s s'')
    (hthreads : ∀ i, Meets m (.frame F) (fun _ ↦ True) (pool.threads i)) :
    F pool.state pool'.state ∧ ∀ i, Meets m (.frame F) (fun _ ↦ True) (pool'.threads i) := by
  induction run with
  | start => exact ⟨hrefl _, hthreads⟩
  | step _ last ih =>
    obtain ⟨hbefore, hthreads'⟩ := ih
    obtain ⟨hlast, hthreads''⟩ := last.meets (fun _ ↦ trivial) hthreads'
    exact ⟨htrans _ _ _ hbefore hlast, hthreads''⟩

/-- An invariant that every thread keeps holds after every run. -/
theorem Pool.Run.keeps (run : Pool.Run m pool events pool')
    (hkeep : ∀ i, Keeps m I (fun _ ↦ True) (pool.threads i)) (hI : I pool.state) :
    I pool'.state ∧ ∀ i, Keeps m I (fun _ ↦ True) (pool'.threads i) := by
  induction run with
  | start => exact ⟨hI, hkeep⟩
  | step _ last ih =>
    obtain ⟨hI', hkeep'⟩ := ih
    exact Pool.Step.meets (D := .keep I) last (fun _ ↦ hI') hkeep'

/--
What holds at the end of a run, and which no step inside the frame can bring about, held all
along. So the threads may be taken to have known it when they kept the invariant.
-/
theorem Pool.Run.keeps_under (run : Pool.Run m pool events pool') (hrefl : ∀ s, F s s)
    (htrans : ∀ s s' s'', F s s' → F s' s'' → F s s'')
    (hframe : ∀ i, Meets m (.frame F) (fun _ ↦ True) (pool.threads i))
    (hback : ∀ s s', F s s' → A s' → A s)
    (hkeep : ∀ i, Meets m (.under A I) (fun _ ↦ True) (pool.threads i)) (hI : I pool.state)
    (hA : A pool'.state) :
    I pool'.state ∧ ∀ i, Meets m (.under A I) (fun _ ↦ True) (pool'.threads i) := by
  induction run with
  | start => exact ⟨hI, hkeep⟩
  | step run last ih =>
    have hthreads := (run.frame hrefl htrans hframe).2
    have hlast := (last.meets (fun _ ↦ trivial) hthreads).1
    have hA' := hback _ _ hlast hA
    obtain ⟨hI', hkeep'⟩ := ih hA'
    exact Pool.Step.meets (D := .under A I) last (fun _ ↦ ⟨hA', hI'⟩) hkeep'

end Threads

/-- The environment makes only choices that are allowed at their call. -/
def Machine.restrict (m : Machine σ ε S X) (allowed : σ.Call → X → Prop) : Machine σ ε S X where
  permits c x s := m.permits c x s ∧ allowed c x
  respond := m.respond

@[simp] theorem Machine.restrict_respond {m : Machine σ ε S X} {allowed : σ.Call → X → Prop} :
    (m.restrict allowed).respond = m.respond := rfl

section StaleReaders

variable [DecidableEq ι] {m : Machine σ ε S X} {touches : σ.Call → Prop}
  {allowed : σ.Call → X → Prop} {R : S → Prop}

/-- A thread that has not touched the data yet will keep `R` once it holds. -/
theorem Pool.Run.untouched {pool pool' : Pool σ ε S ι} {events : List (Event σ X ι)}
    (run : Pool.Run m pool events pool') (hallowed : ∀ c x, ¬ touches c → allowed c x)
    (hthreads : ∀ i, Meets (m.restrict allowed) (.inside touches R) (fun _ ↦ True) (pool.threads i))
    (i : ι) (hi : ∀ e ∈ events, e.thread = i → ¬ touches e.call) :
    Meets (m.restrict allowed) (.inside touches R) (fun _ ↦ True) (pool'.threads i) := by
  induction run with
  | start => exact hthreads i
  | @step events pool' pool'' e _ last ih =>
    have hprev := ih fun e he ↦ hi e (by simp [he])
    have hlast := hi e (by simp)
    obtain ⟨hnext, hx⟩ := last
    rename_i j c x k
    by_cases hij : j = i
    · subst hij
      rw [hnext] at hprev
      have hc : ¬ touches c := hlast rfl
      simpa using (hprev _ _ (fun h ↦ absurd h hc) ⟨hx, hallowed c x hc⟩).2
    · simpa [update_of_ne (Ne.symm hij)] using hprev

/--
Once `R` holds it goes on to hold, provided the threads that touched the data before make
no further call that could end it, and the environment from then on makes allowed choices.
-/
theorem Pool.Run.stays_inside {pool : Pool σ ε S ι} (run₁ : Pool.Run m pool before pool₁)
    (hallowed : ∀ c x, ¬ touches c → allowed c x)
    (hthreads : ∀ i, Meets (m.restrict allowed) (.inside touches R) (fun _ ↦ True) (pool.threads i))
    (hR : R pool₁.state) (run₂ : Pool.Run m pool₁ after pool₂)
    (hafter : ∀ e ∈ after, allowed e.call e.choice)
    (stale : ∀ e ∈ after, (∃ e' ∈ before, e'.thread = e.thread ∧ touches e'.call) →
      ∀ s, R s → R (m.respond e.call e.choice s).2) : R pool₂.state := by
  classical
  suffices h : R pool₂.state ∧ ∀ i, (∃ e' ∈ before, e'.thread = i ∧ touches e'.call) ∨
      Meets (m.restrict allowed) (.inside touches R) (fun _ ↦ True) (pool₂.threads i) from h.1
  induction run₂ with
  | start =>
    refine ⟨hR, fun i ↦ or_iff_not_imp_left.mpr fun hi ↦ run₁.untouched hallowed hthreads i ?_⟩
    exact fun e he hei htouch ↦ hi ⟨e, he, hei, htouch⟩
  | step _ last ih =>
    obtain ⟨hR', hothers⟩ := ih (fun e he ↦ hafter e (by simp [he])) fun e he ↦ stale e (by simp [he])
    have hlast := stale _ (mem_append_right _ (mem_singleton_self _))
    have hchoice := hafter _ (mem_append_right _ (mem_singleton_self _))
    obtain ⟨hnext, hx⟩ := last
    rename_i pool' i c x k
    obtain hi | hi := hothers i
    · refine ⟨hlast hi _ hR', fun j ↦ ?_⟩
      by_cases hij : j = i
      · exact .inl (hij ▸ hi)
      · simpa [update_of_ne hij] using hothers j
    · rw [hnext] at hi
      obtain ⟨hkeep, hrest⟩ := hi _ _ (fun _ ↦ hR') ⟨hx, hchoice⟩
      refine ⟨hkeep hR', fun j ↦ ?_⟩
      by_cases hij : j = i
      · subst hij
        exact .inr (by simpa using hrest)
      · simpa [update_of_ne hij] using hothers j

end StaleReaders

end AsyncProgram
