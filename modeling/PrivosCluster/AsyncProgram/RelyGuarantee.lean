import PrivosCluster.AsyncProgram.Interleaving
import PrivosCluster.AsyncProgram.Tracing

/-!
# Rely and guarantee

A thread of a pool is verified on its own: between its calls the state may change as far as its
contract relies on, and each of its calls has to ensure what the contracts of the others rely on.
What a thread has done so far is noted in a ghost value of its own, which no program reads. The
rule at the end joins threads whose contracts fit together.
-/

namespace AsyncProgram

open List Function

variable {σ : Signature} {ε S X H ι α β : Type}

structure Contract (σ : Signature) (ε S X H : Type) where
  /-- The note after a call, given the answer. -/
  track : H → (c : σ.Call) → Except ε (σ.Answer c) → H
  /-- What is known of the run at a call of the thread. -/
  assumes : σ.Call → X → S → Prop
  /-- What the calls of other threads do to the state, while the thread has this note. -/
  rely : H → S → S → Prop
  ensures : H → σ.Call → X → S → Prop
  rely_refl : ∀ h s, rely h s s
  rely_trans : ∀ h s s' s'', rely h s s' → rely h s' s'' → rely h s s''

/-- The weakest precondition of a program among others. -/
def Among (m : Machine σ ε S X) (C : Contract σ ε S X H) (Q : Except ε α → H → S → Prop) :
    Program σ ε α → H → S → Prop
  | .pure a, h, s => Q (.ok a) h s
  | .throw e, h, s => Q (.error e) h s
  | .call c k, h, s => ∀ s', C.rely h s s' → ∀ x, m.permits c x s' → C.assumes c x s' →
      C.ensures h c x s' ∧
        Among m C Q (k (m.respond c x s').1) (C.track h c (m.respond c x s').1) (m.respond c x s').2

/-- A postcondition given separately for a returned result and for a thrown error. -/
def onExit (ok : α → H → S → Prop) (error : ε → H → S → Prop) : Except ε α → H → S → Prop
  | .ok a => ok a
  | .error e => error e

variable {error E : ε → H → S → Prop} {ok : α → H → S → Prop} {e : ε}
  {R : Except ε α → H → S → Prop} {I : List α → H → S → Prop} {P : ι → σ.Call → Prop}
  {notes' : ι → H} {A : (ι → H) → ι → σ.Call → X → S → Prop}

@[simp] theorem onExit_ok {a : α} :
    onExit ok error (.ok a) = ok a := rfl

@[simp] theorem onExit_error :
    onExit ok error (.error e) = error e := rfl

namespace Among

@[simp] theorem pure_iff {Q : Except ε α → H → S → Prop} {a : α} :
    Among m C Q (.pure a) h s ↔ Q (.ok a) h s := Iff.rfl

@[simp] theorem throw_iff {Q : Except ε α → H → S → Prop} :
    Among m C Q (.throw e) h s ↔ Q (.error e) h s := Iff.rfl

variable {m : Machine σ ε S X} {C : Contract σ ε S X H} {h : H} {s s' : S}

variable {Q : Except ε α → H → S → Prop} {p : Program σ ε α}

/-- What others do does not invalidate what has been shown of a thread. -/
theorem stable (hQ : ∀ r h s s', C.rely h s s' → Q r h s → Q r h s') (hp : Among m C Q p h s)
    (hrely : C.rely h s s') : Among m C Q p h s' := by
  cases p with
  | pure a => exact hQ _ h s s' hrely hp
  | throw e => exact hQ _ h s s' hrely hp
  | call c k => exact fun s'' hrely' ↦ hp s'' (C.rely_trans h s s' s'' hrely hrely')

theorem imp {Q' : Except ε α → H → S → Prop} (hp : Among m C Q p h s)
    (hQ : ∀ r h s, Q r h s → Q' r h s) : Among m C Q' p h s := by
  induction p generalizing h s with
  | pure a => exact hQ _ h s hp
  | throw e => exact hQ _ h s hp
  | call c k ih =>
    intro s' hrely x hx hassume
    obtain ⟨hensures, hrest⟩ := hp s' hrely x hx hassume
    exact ⟨hensures, ih _ hrest⟩

theorem bind {Q : Except ε β → H → S → Prop} {f : α → Program σ ε β} (hp : Among m C R p h s)
    (hok : ∀ a h s, R (.ok a) h s → Among m C Q (f a) h s)
    (herror : ∀ e h s, R (.error e) h s → Q (.error e) h s) : Among m C Q (p >>= f) h s := by
  induction p generalizing h s with
  | pure a => exact hok a h s hp
  | throw e => exact herror e h s hp
  | call c k ih =>
    intro s' hrely x hx hassume
    obtain ⟨hensures, hrest⟩ := hp s' hrely x hx hassume
    exact ⟨hensures, ih _ hrest⟩

theorem ask {c : σ.Call} {Q : Except ε (σ.Answer c) → H → S → Prop}
    (hc : ∀ s', C.rely h s s' → ∀ x, m.permits c x s' → C.assumes c x s' →
      C.ensures h c x s' ∧
        Q (m.respond c x s').1 (C.track h c (m.respond c x s').1) (m.respond c x s').2) :
    Among m C Q (Program.ask c) h s := by
  intro s' hrely x hx hassume
  obtain ⟨hensures, hQ⟩ := hc s' hrely x hx hassume
  refine ⟨hensures, ?_⟩
  cases hr : (m.respond c x s').1 <;> rw [hr] at hQ <;> exact hQ

theorem settle {Q : Except ε (Except ε α) → H → S → Prop}
    (hp : Among m C (fun r h s ↦ Q (.ok r) h s) p h s) : Among m C Q p.settle h s := by
  induction p generalizing h s with
  | pure a => exact hp
  | throw e => exact hp
  | call c k ih =>
    intro s' hrely x hx hassume
    obtain ⟨hensures, hrest⟩ := hp s' hrely x hx hassume
    exact ⟨hensures, ih _ hrest⟩

theorem ofExcept {r : Except ε α} (hr : Q r h s) : Among m C Q (Program.ofExcept r) h s := by
  cases r <;> exact hr

theorem throwIf {Q : Except ε Unit → H → S → Prop} {c : Prop} [Decidable c]
    (herror : c → Q (.error e) h s) (hok : ¬ c → Q (.ok ()) h s) :
    Among m C Q (Program.throwIf c e) h s := by
  unfold Program.throwIf
  split
  next hc => exact herror hc
  next hc => exact hok hc

theorem onlyIf {Q : Except ε Unit → H → S → Prop} {c : Prop} [Decidable c] {p : Program σ ε Unit}
    (hp : c → Among m C Q p h s) (hok : ¬ c → Q (.ok ()) h s) :
    Among m C Q (Program.onlyIf c p) h s := by
  unfold Program.onlyIf
  split
  next hc => exact hp hc
  next hc => exact hok hc

theorem finallyDo {last : Program σ ε Unit} (hp : Among m C R p h s)
    (hlast : ∀ r h s, R r h s → Among m C (onExit (fun _ ↦ Q r) fun e ↦ Q (.error e)) last h s) :
    Among m C Q (p.finallyDo last) h s := by
  apply bind (R := onExit (R) fun _ _ _ ↦ False) (settle hp)
  · intro r h s hr
    apply bind (hlast r h s hr)
    · exact fun _ h s hQ ↦ ofExcept hQ
    · exact fun _ h s hQ ↦ hQ
  · exact fun _ _ _ hr ↦ hr.elim

theorem tryCatch {handler : ε → Program σ ε α} (hp : Among m C (onExit (fun a ↦ Q (.ok a)) E) p h s)
    (hhandler : ∀ e h s, E e h s → Among m C Q (handler e) h s) :
    Among m C Q (p.tryCatch handler) h s := by
  apply bind (R := onExit (onExit (fun a ↦ Q (.ok a)) E) fun _ _ _ ↦ False) (settle hp)
  · intro r h s hr
    cases r with
    | ok a => exact hr
    | error e => exact hhandler e h s hr
  · exact fun _ _ _ hr ↦ hr.elim

/-- The loop rule: an invariant over the elements already visited. -/
theorem foldEach {body : β → α → Program σ ε β} {xs : List α}
    (step : ∀ visited x rest b h s, xs = visited ++ x :: rest → I visited h s →
      Among m C (onExit (fun _ ↦ I (visited ++ [x])) E) (body b x) h s) {b : β} (start : I [] h s) :
    Among m C (onExit (fun _ ↦ I xs) E) (Program.foldEach body b xs) h s := by
  suffices hrest : ∀ rest visited b h s, xs = visited ++ rest → I visited h s →
      Among m C (onExit (fun _ ↦ I xs) E) (Program.foldEach body b rest) h s from
    hrest xs [] b h s rfl start
  intro rest
  induction rest with
  | nil =>
    intro visited b h s hxs hI
    rw [append_nil] at hxs
    exact hxs ▸ hI
  | cons x rest ih =>
    intro visited b h s hxs hI
    apply bind (step visited x rest b h s hxs hI)
    · exact fun b h s hb ↦ ih (visited ++ [x]) b h s (by simp [hxs]) hb
    · exact fun _ h s he ↦ he

theorem mapEach {body : α → Program σ ε β} {xs : List α}
    (step : ∀ visited x rest h s, xs = visited ++ x :: rest → I visited h s →
      Among m C (onExit (fun _ ↦ I (visited ++ [x])) E) (body x) h s) (start : I [] h s) :
    Among m C (onExit (fun _ ↦ I xs) E) (Program.mapEach body xs) h s := by
  suffices hrest : ∀ rest visited h s, xs = visited ++ rest → I visited h s →
      Among m C (onExit (fun _ ↦ I xs) E) (Program.mapEach body rest) h s from
    hrest xs [] h s rfl start
  intro rest
  induction rest with
  | nil =>
    intro visited h s hxs hI
    rw [append_nil] at hxs
    exact hxs ▸ hI
  | cons x rest ih =>
    intro visited h s hxs hI
    apply bind (step visited x rest h s hxs hI)
    · intro b h s hb
      apply bind (ih (visited ++ [x]) h s (by simp [hxs]) hb)
      · exact fun _ h s hI ↦ hI
      · exact fun _ h s he ↦ he
    · exact fun _ h s he ↦ he

/-- Every call of such a program keeps a stable condition that all its calls keep. -/
theorem keeps {I : H → S → Prop} {P : σ.Call → Prop} (hp : Asks P p)
    (hstable : ∀ h s s', C.rely h s s' → I h s → I h s')
    (hcalls : ∀ h c x s, P c → m.permits c x s → C.assumes c x s → I h s →
      C.ensures h c x s ∧ I (C.track h c (m.respond c x s).1) (m.respond c x s).2) (hI : I h s) :
    Among m C (fun _ ↦ I) p h s := by
  induction p generalizing h s with
  | pure a => exact hI
  | throw e => exact hI
  | call c k ih =>
    intro s' hrely x hx hassume
    obtain ⟨hensures, hI'⟩ := hcalls h c x s' hp.1 hx hassume (hstable h s s' hrely hI)
    exact ⟨hensures, ih _ (hp.2 _) hI'⟩

/-- A program whose calls all ensure what they have to, whatever was answered before. -/
theorem of_asks {P : σ.Call → Prop} (hp : Asks P p)
    (hensures : ∀ h c x s, P c → m.permits c x s → C.assumes c x s → C.ensures h c x s) :
    Among m C (fun _ _ _ ↦ True) p h s :=
  keeps (I := fun _ _ ↦ True) hp (fun _ _ _ _ _ ↦ trivial)
    (fun h c x s hc hx hassume _ ↦ ⟨hensures h c x s hc hx hassume, trivial⟩) trivial

end Among

section Together

variable [DecidableEq ι] {m : Machine σ ε S X}

variable {pool' pool : Pool σ ε S ι} {events : List (Event σ X ι)}

/-- Whatever a thread is answered, it makes only calls of its kind. -/
theorem Pool.Run.asks (run : Pool.Run m pool events pool')
    (hthreads : ∀ i, Asks (P i) (pool.threads i)) : ∀ i, Asks (P i) (pool'.threads i) := by
  induction run with
  | start => exact hthreads
  | @step events pool' pool'' e _ last ih =>
    obtain ⟨hnext, -⟩ := last
    rename_i i c x k
    intro j
    by_cases hij : j = i
    · subst hij
      have hj := ih j
      rw [hnext] at hj
      simpa using hj.2 _
    · simpa [update_of_ne hij] using ih j

/-- The calls of a run are of the kinds of their threads. -/
theorem Pool.Run.calls (run : Pool.Run m pool events pool')
    (hthreads : ∀ i, Asks (P i) (pool.threads i)) : ∀ e ∈ events, P e.thread e.call := by
  induction run with
  | start => exact nofun
  | @step events pool' pool'' e run last ih =>
    have hasks := run.asks hthreads e.thread
    intro e' he'
    obtain hbefore | hlast := mem_append.mp he'
    · exact ih e' hbefore
    · obtain rfl := mem_singleton.mp hlast
      obtain ⟨hnext, -⟩ := last
      rw [hnext] at hasks
      exact hasks.1

/-- What every call of these kinds keeps holds after every run. -/
theorem Pool.Run.invariant {I : S → Prop} (run : Pool.Run m pool events pool')
    (hthreads : ∀ i, Asks (P i) (pool.threads i))
    (hkeep : ∀ i c x s, P i c → I s → I (m.respond c x s).2) (hI : I pool.state) :
    I pool'.state := by
  induction run with
  | start => exact hI
  | @step events pool' pool'' e run last ih =>
    have hasks := run.asks hthreads e.thread
    obtain ⟨hnext, -⟩ := last
    rw [hnext] at hasks
    exact hkeep _ _ _ _ hasks.1 ih

/-- A thread that makes no call stays where it is. -/
theorem Pool.Run.idle (run : Pool.Run m pool events pool') {i : ι}
    (hidle : ∀ e ∈ events, e.thread ≠ i) : pool'.threads i = pool.threads i := by
  induction run with
  | start => rfl
  | @step events pool' pool'' e run last ih =>
    have hbefore := ih fun e he ↦ hidle e (mem_append_left _ he)
    have hlast := hidle e (by simp)
    obtain ⟨hnext, -⟩ := last
    exact (update_of_ne (Ne.symm hlast) _ _).trans hbefore

/-- Contracts that fit together, and what the notes of all threads say of the state. -/
structure Team (m : Machine σ ε S X) (C : ι → Contract σ ε S X H)
    (Q : ι → Except ε Unit → H → S → Prop) (J : (ι → H) → S → Prop) : Prop where
  stable : ∀ i r h s s', (C i).rely h s s' → Q i r h s → Q i r h s'
  fits : ∀ notes s i c x, J notes s → m.permits c x s → (C i).assumes c x s →
    (C i).ensures (notes i) c x s → ∀ j, j ≠ i → (C j).rely (notes j) s (m.respond c x s).2
  keeps : ∀ notes s i c x, J notes s → m.permits c x s → (C i).assumes c x s →
    (C i).ensures (notes i) c x s →
      J (Function.update notes i ((C i).track (notes i) c (m.respond c x s).1)) (m.respond c x s).2

variable {C : ι → Contract σ ε S X H} {Q : ι → Except ε Unit → H → S → Prop}
  {J : (ι → H) → S → Prop} {pool pool' : Pool σ ε S ι} {events : List (Event σ X ι)}

/-- The threads are where their contracts allow, with these notes. -/
structure Pool.Stands (m : Machine σ ε S X) (C : ι → Contract σ ε S X H)
    (Q : ι → Except ε Unit → H → S → Prop) (J : (ι → H) → S → Prop) (notes : ι → H)
    (pool : Pool σ ε S ι) : Prop where
  threads : ∀ i, Among m (C i) (Q i) (pool.threads i) (notes i) pool.state
  joint : J notes pool.state

variable {notes : ι → H}

/-- One call of one thread: the others may have relied on what it does. -/
theorem Pool.Step.together {e : Event σ X ι} (team : Team m C Q J)
    (step : Pool.Step m pool e pool') (hassume : (C e.thread).assumes e.call e.choice pool.state)
    (hstands : pool.Stands m C Q J notes) : ∃ notes', pool'.Stands m C Q J notes' := by
  obtain ⟨hnext, hx⟩ := step
  rename_i i c x k
  have hi := hstands.threads i
  rw [hnext] at hi
  obtain ⟨hensures, hrest⟩ := hi _ ((C i).rely_refl _ _) x hx hassume
  refine ⟨Function.update notes i ((C i).track (notes i) c (m.respond c x pool.state).1), ?_,
    team.keeps notes _ i c x hstands.joint hx hassume hensures⟩
  intro j
  by_cases hij : j = i
  · subst hij
    simpa using hrest
  · have hrely := team.fits notes _ i c x hstands.joint hx hassume hensures j hij
    simpa [update_of_ne hij] using (hstands.threads j).stable (team.stable j) hrely

/-- Threads that stand where their contracts allow do so after every run. -/
theorem Pool.Run.together (team : Team m C Q J) (run : Pool.Run m pool events pool')
    (hassume : ∀ before e after pool₁ notes, events = before ++ e :: after →
      Pool.Run m pool before pool₁ → J notes pool₁.state →
        (C e.thread).assumes e.call e.choice pool₁.state) (hstands : pool.Stands m C Q J notes) :
    ∃ notes', pool'.Stands m C Q J notes' := by
  induction run with
  | start => exact ⟨notes, hstands⟩
  | @step events pool₁ pool₂ e run last ih =>
    obtain ⟨notes₁, hstands₁⟩ := ih fun before e' after pool' notes' hsplit hrun hjoint ↦
      hassume before e' (after ++ [e]) pool' notes' (by simp [hsplit]) hrun hjoint
    exact last.together team (hassume events e [] pool₁ notes₁ rfl run hstands₁.joint) hstands₁

/-! ## Runs with their notes -/

/-- A run together with the notes that the contracts take on the way. -/
inductive Pool.Noted (m : Machine σ ε S X) (C : ι → Contract σ ε S X H) (notes : ι → H)
    (pool : Pool σ ε S ι) : List (Event σ X ι) → (ι → H) → Pool σ ε S ι → Prop where
  | start : Noted m C notes pool [] notes pool
  | step {events : List (Event σ X ι)} {notes' : ι → H} {pool' pool'' : Pool σ ε S ι}
      {e : Event σ X ι} (run : Noted m C notes pool events notes' pool')
      (last : Pool.Step m pool' e pool'') :
      Noted m C notes pool (events ++ [e])
        (Function.update notes' e.thread ((C e.thread).track (notes' e.thread) e.call
          (m.respond e.call e.choice pool'.state).1)) pool''

theorem Pool.Noted.run (noted : Pool.Noted m C notes pool events notes' pool') :
    Pool.Run m pool events pool' := by
  induction noted with
  | start => exact .start
  | step _ last ih => exact .step ih last

/-- Contracts that fit together in runs whose calls satisfy `A`, which sees the notes of all. -/
structure TeamUnder (m : Machine σ ε S X) (C : ι → Contract σ ε S X H)
    (Q : ι → Except ε Unit → H → S → Prop) (J : (ι → H) → S → Prop)
    (A : (ι → H) → ι → σ.Call → X → S → Prop) : Prop where
  stable : ∀ i r h s s', (C i).rely h s s' → Q i r h s → Q i r h s'
  assumes : ∀ notes s i c x, J notes s → A notes i c x s → (C i).assumes c x s
  fits : ∀ notes s i c x, J notes s → m.permits c x s → A notes i c x s →
    (C i).ensures (notes i) c x s → ∀ j, j ≠ i → (C j).rely (notes j) s (m.respond c x s).2
  keeps : ∀ notes s i c x, J notes s → m.permits c x s → A notes i c x s →
    (C i).ensures (notes i) c x s →
      J (Function.update notes i ((C i).track (notes i) c (m.respond c x s).1)) (m.respond c x s).2

theorem Pool.Run.noted (run : Pool.Run m pool events pool') (notes : ι → H) :
    ∃ notes', Pool.Noted m C notes pool events notes' pool' := by
  induction run with
  | start => exact ⟨notes, .start⟩
  | step _ last ih =>
    obtain ⟨notes', noted⟩ := ih
    exact ⟨_, .step noted last⟩

/-- Threads that stand where their contracts allow do so after every run of such calls. -/
theorem Pool.Noted.together (team : TeamUnder m C Q J A)
    (noted : Pool.Noted m C notes pool events notes' pool')
    (hassume : ∀ before e after pool₁ notes₁, events = before ++ e :: after →
      Pool.Noted m C notes pool before notes₁ pool₁ → J notes₁ pool₁.state →
        A notes₁ e.thread e.call e.choice pool₁.state) (hstands : pool.Stands m C Q J notes) :
    pool'.Stands m C Q J notes' := by
  induction noted with
  | start => exact hstands
  | @step events notes₁ pool₁ pool₂ e noted last ih =>
    have hstands₁ := ih fun before e' after pool' notes' hsplit hnoted hjoint ↦
      hassume before e' (after ++ [e]) pool' notes' (by simp [hsplit]) hnoted hjoint
    have hA := hassume events e [] pool₁ notes₁ rfl noted hstands₁.joint
    have hcall := team.assumes _ _ _ _ _ hstands₁.joint hA
    obtain ⟨hnext, hx⟩ := last
    rename_i i c x k
    have hi := hstands₁.threads i
    rw [hnext] at hi
    obtain ⟨hensures, hrest⟩ := hi _ ((C i).rely_refl _ _) x hx hcall
    refine ⟨fun j ↦ ?_, team.keeps notes₁ _ i c x hstands₁.joint hx hA hensures⟩
    by_cases hij : j = i
    · subst hij
      simpa using hrest
    · have hrely := team.fits notes₁ _ i c x hstands₁.joint hx hA hensures j hij
      simpa [update_of_ne hij] using (hstands₁.threads j).stable (team.stable j) hrely

theorem Pool.Run.together_under (team : TeamUnder m C Q J A) (run : Pool.Run m pool events pool')
    (hassume : ∀ before e after pool₁ notes₁, events = before ++ e :: after →
      Pool.Noted m C notes pool before notes₁ pool₁ → J notes₁ pool₁.state →
        A notes₁ e.thread e.call e.choice pool₁.state) (hstands : pool.Stands m C Q J notes) :
    ∃ notes', Pool.Noted m C notes pool events notes' pool' ∧ pool'.Stands m C Q J notes' := by
  obtain ⟨notes', noted⟩ := run.noted notes
  exact ⟨notes', noted, noted.together team hassume hstands⟩

end Together

end AsyncProgram
