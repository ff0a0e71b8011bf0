import PrivosCluster.AsyncProgram.Parallel

/-!
# Debts

A thread whose call leaves the state in need of another call owes that call. As long as every
thread pays what it owes, whatever the others do in between, nothing is due once all threads are
done. What a thread owes is read off the rest of its program, so programs in parallel owe what
their parts owe.
-/

namespace AsyncProgram

variable {σ : Signature} {ε S X ι α β D : Type}

/-- The calls that bring a debt about, and those after which none is due. -/
structure Debts (t : Terms σ ε) (D : Type) where
  incurs : D → (c : σ.Call) → Except ε (σ.Answer c) → Prop
  settles : D → (c : σ.Call) → Except ε (σ.Answer c) → Prop

variable {t : Terms σ ε} {B : Debts t D} {d : D}

/-- Every way on through the program comes to a call that settles the debt. -/
def Owes (B : Debts t D) (d : D) : Program σ ε α → Prop
  | .pure _ => False
  | .throw _ => False
  | .call c k => ∀ answer, t.answers c answer → B.settles d c answer ∨ Owes B d (k answer)

/-- The program owes whatever debt it brings about. -/
def Solvent (B : Debts t D) : Program σ ε α → Prop
  | .pure _ => True
  | .throw _ => True
  | .call c k => ∀ answer, t.answers c answer →
      (∀ d, B.incurs d c answer → B.settles d c answer ∨ Owes B d (k answer)) ∧
        Solvent B (k answer)

/-- No admissible answers lead the program to throw. -/
def Returns (t : Terms σ ε) : Program σ ε α → Prop
  | .pure _ => True
  | .throw _ => False
  | .call c k => ∀ answer, t.answers c answer → Returns t (k answer)

/-! ## Sequences -/

variable {f : α → Program σ ε β} {p : Program σ ε α} {c : σ.Call}
  {k : Except ε (σ.Answer c) → Program σ ε α}
  {rest : Except ε (σ.Answer c) → Program σ ε β → Program σ ε (Except ε α × Except ε β)}
  {q : Program σ ε β}

theorem Returns.bind (hp : Returns t p) (hf : ∀ a, Returns t (f a)) : Returns t (p >>= f) := by
  induction p with
  | pure a => exact hf a
  | throw e => exact hp.elim
  | call c k ih => exact fun answer hanswer ↦ ih answer (hp answer hanswer)

theorem Returns.settle (t : Terms σ ε) (p : Program σ ε α) : Returns t p.settle := by
  induction p with
  | pure a => trivial
  | throw e => trivial
  | call c k ih => exact fun answer _ ↦ ih answer

theorem Returns.ask (h : ∀ e, ¬ t.answers c (.error e)) : Returns t (Program.ask c) := by
  intro answer hanswer
  cases answer with
  | ok a => trivial
  | error e => exact absurd hanswer (h e)

theorem Owes.bind (h : Owes B d p) : Owes B d (p >>= f) := by
  induction p with
  | pure a => exact h.elim
  | throw e => exact h.elim
  | call c k ih => exact fun answer hanswer ↦ (h answer hanswer).imp_right (ih answer)

/-- What comes after a program that returns is owed from the beginning. -/
theorem Returns.owes (hp : Returns t p) (hf : ∀ a, Owes B d (f a)) : Owes B d (p >>= f) := by
  induction p with
  | pure a => exact hf a
  | throw e => exact hp.elim
  | call c k ih => exact fun answer hanswer ↦ .inr (ih answer (hp answer hanswer))

theorem Owes.ask (h : ∀ answer, t.answers c answer → B.settles d c answer) :
    Owes B d (Program.ask c : Program σ ε (σ.Answer c)) :=
  fun answer hanswer ↦ .inl (h answer hanswer)

/-- A call that does not fail, and a debt that its answer lets the rest pay. -/
theorem Owes.ask_bind {f : σ.Answer c → Program σ ε β} (herror : ∀ e, ¬ t.answers c (.error e))
    (hf : ∀ a, t.answers c (.ok a) → Owes B d (f a)) : Owes B d (Program.ask c >>= f) := by
  intro answer hanswer
  cases answer with
  | ok a => exact .inr (hf a hanswer)
  | error e => exact absurd hanswer (herror e)

theorem Owes.settle (h : Owes B d p) : Owes B d p.settle := by
  induction p with
  | pure a => exact h.elim
  | throw e => exact h.elim
  | call c k ih => exact fun answer hanswer ↦ (h answer hanswer).imp_right (ih answer)

namespace Solvent

theorem bind (hp : Solvent B p) (hf : ∀ a, Solvent B (f a)) : Solvent B (p >>= f) := by
  induction p with
  | pure a => exact hf a
  | throw e => trivial
  | call c k ih =>
    intro answer hanswer
    obtain ⟨hincurs, hrest⟩ := hp answer hanswer
    exact ⟨fun d hd ↦ (hincurs d hd).imp_right Owes.bind, ih answer hrest⟩

theorem settle (hp : Solvent B p) : Solvent B p.settle := by
  induction p with
  | pure a => trivial
  | throw e => trivial
  | call c k ih =>
    intro answer hanswer
    obtain ⟨hincurs, hrest⟩ := hp answer hanswer
    exact ⟨fun d hd ↦ (hincurs d hd).imp_right Owes.settle, ih answer hrest⟩

/-- A call that brings no debt about. -/
theorem ask (h : ∀ d answer, t.answers c answer → ¬ B.incurs d c answer) :
    Solvent B (Program.ask c) := by
  intro answer hanswer
  refine ⟨fun d hd ↦ absurd hd (h d answer hanswer), ?_⟩
  cases answer <;> trivial

theorem ask_bind {f : σ.Answer c → Program σ ε β}
    (h : ∀ d answer, t.answers c answer → ¬ B.incurs d c answer)
    (hf : ∀ a, t.answers c (.ok a) → Solvent B (f a)) : Solvent B (Program.ask c >>= f) := by
  intro answer hanswer
  refine ⟨fun d hd ↦ absurd hd (h d answer hanswer), ?_⟩
  cases answer with
  | ok a => exact hf a hanswer
  | error e => trivial

theorem tryCatch {handler : ε → Program σ ε α} (hp : Solvent B p)
    (hhandler : ∀ e, Solvent B (handler e)) : Solvent B (p.tryCatch handler) := by
  apply hp.settle.bind
  intro outcome
  cases outcome with
  | ok a => trivial
  | error e => exact hhandler e

theorem onlyIf {c : Prop} [Decidable c] {p : Program σ ε Unit} (h : Solvent B p) :
    Solvent B (Program.onlyIf c p) := by
  unfold Program.onlyIf
  split
  · exact h
  · trivial

end Solvent

/-! ## Tasks in parallel -/

section Parallel

variable {s : Scheduler σ ε}

theorem Returns.parCall (hrest : ∀ answer q, Returns t (rest answer q)) (q : Program σ ε β) :
    Returns t (Program.parCall s c k rest q) := by
  induction q with
  | pure b => exact (Returns.settle t _).bind fun _ ↦ trivial
  | throw e => exact (Returns.settle t _).bind fun _ ↦ trivial
  | call c' l ih =>
    intro answer _
    beta_reduce
    split
    · exact fun answer _ ↦ hrest answer _
    · exact fun answer _ ↦ ih answer

theorem Returns.par (p : Program σ ε α) (q : Program σ ε β) : Returns t (Program.par s p q) := by
  induction p generalizing q with
  | pure a => exact (Returns.settle t q).bind fun _ ↦ trivial
  | throw e => exact (Returns.settle t q).bind fun _ ↦ trivial
  | call c k ih => exact Returns.parCall (ih) q

theorem Returns.allSettled (tasks : List (Program σ ε α)) :
    Returns t (Program.allSettled s tasks) := by
  cases tasks with
  | nil => trivial
  | cons task tasks => exact (Returns.par task _).bind fun _ ↦ trivial

theorem Owes.parCall (hp : Owes B d (.call c k))
    (hrest : ∀ answer, Owes B d (k answer) → ∀ q, Owes B d (rest answer q)) (q : Program σ ε β) :
    Owes B d (Program.parCall s c k rest q) := by
  induction q with
  | pure b => exact hp.settle.bind
  | throw e => exact hp.settle.bind
  | call c' l ih =>
    intro answer _
    right
    beta_reduce
    split
    · exact fun answer hanswer ↦ (hp answer hanswer).imp_right fun hk ↦ hrest answer hk _
    · exact fun answer _ ↦ .inr (ih answer)

/-- What the first task owes is owed, whatever the second task is. -/
theorem Owes.par_left (hp : Owes B d p) (q : Program σ ε β) : Owes B d (Program.par s p q) := by
  induction p generalizing q with
  | pure a => exact hp.elim
  | throw e => exact hp.elim
  | call c k ih => exact hp.parCall (ih) q

theorem Owes.parCall_right (hq : Owes B d q)
    (hrest : ∀ answer q, Owes B d q → Owes B d (rest answer q)) :
    Owes B d (Program.parCall s c k rest q) := by
  induction q with
  | pure b => exact hq.elim
  | throw e => exact hq.elim
  | call c' l ih =>
    intro answer _
    right
    beta_reduce
    split
    · exact fun answer _ ↦ .inr (hrest answer _ hq)
    · exact fun answer hanswer ↦ (hq answer hanswer).imp_right (ih answer)

theorem Owes.par_right (hq : Owes B d q) (p : Program σ ε α) : Owes B d (Program.par s p q) := by
  induction p generalizing q with
  | pure a => exact hq.settle.bind
  | throw e => exact hq.settle.bind
  | call c k ih => exact hq.parCall_right fun answer q hq ↦ ih answer hq

theorem Solvent.parCall (hturn : ∀ d answer, ¬ B.incurs d s.turn answer)
    (hp : Solvent B (.call c k))
    (hrest : ∀ answer, Solvent B (k answer) → ∀ q, Solvent B q → Solvent B (rest answer q))
    (hleft : ∀ d answer, Owes B d (k answer) → ∀ q, Owes B d (rest answer q))
    (hright : ∀ d answer q, Owes B d q → Owes B d (rest answer q)) (hq : Solvent B q) :
    Solvent B (Program.parCall s c k rest q) := by
  induction q with
  | pure b => exact hp.settle.bind fun _ ↦ trivial
  | throw e => exact hp.settle.bind fun _ ↦ trivial
  | call c' l ih =>
    intro answer _
    refine ⟨fun d hd ↦ absurd hd (hturn d answer), ?_⟩
    beta_reduce
    split
    · intro answer hanswer
      obtain ⟨hincurs, hk⟩ := hp answer hanswer
      exact ⟨fun d hd ↦ (hincurs d hd).imp_right fun howes ↦ hleft d answer howes _,
        hrest answer hk _ hq⟩
    · intro answer hanswer
      obtain ⟨hincurs, hl⟩ := hq answer hanswer
      exact ⟨fun d hd ↦ (hincurs d hd).imp_right fun howes ↦ howes.parCall_right (hright d),
        ih answer hl⟩

theorem Solvent.par (hturn : ∀ d answer, ¬ B.incurs d s.turn answer) (hp : Solvent B p)
    (hq : Solvent B q) : Solvent B (Program.par s p q) := by
  induction p generalizing q with
  | pure a => exact hq.settle.bind fun _ ↦ trivial
  | throw e => exact hq.settle.bind fun _ ↦ trivial
  | call c k ih =>
    exact hp.parCall hturn (fun answer hk q hq ↦ ih answer hk hq)
      (fun d answer howes q ↦ howes.par_left q) (fun d answer q howes ↦ howes.par_right _) hq

theorem Solvent.allSettled (hturn : ∀ d answer, ¬ B.incurs d s.turn answer)
    {tasks : List (Program σ ε α)} (h : ∀ task ∈ tasks, Solvent B task) :
    Solvent B (Program.allSettled s tasks) := by
  induction tasks with
  | nil => trivial
  | cons task tasks ih =>
    have htask := h task List.mem_cons_self
    have htasks := ih fun task' htask' ↦ h task' (List.mem_cons_of_mem _ htask')
    exact (htask.par hturn htasks).bind fun _ ↦ trivial

end Parallel

/-! ## Threads that pay -/

/-- The machine keeps to the terms, and what is due is what has been brought about and not paid. -/
structure Debts.Booked (B : Debts t D) (m : Machine σ ε S X) (I : S → Prop) (due : D → S → Prop) :
    Prop where
  keeps : ∀ c x s, t.allows c → m.permits c x s → I s →
    I (m.respond c x s).2 ∧ t.answers c (m.respond c x s).1
  incurred : ∀ d c x s, t.allows c → m.permits c x s → I s → due d (m.respond c x s).2 →
    due d s ∨ B.incurs d c (m.respond c x s).1
  settled : ∀ d c x s, t.allows c → m.permits c x s → I s →
    B.settles d c (m.respond c x s).1 → ¬ due d (m.respond c x s).2

/-- The debts may be kept for some of what is due only. -/
theorem Debts.Booked.restrict {m : Machine σ ε S X} {I : S → Prop} {due : D → S → Prop}
    (h : B.Booked m I due) (counted : D → Prop) :
    B.Booked m I fun d s ↦ counted d ∧ due d s where
  keeps := h.keeps
  incurred d c x s hallows hx hI hdue :=
    (h.incurred d c x s hallows hx hI hdue.2).imp_left fun hbefore ↦ ⟨hdue.1, hbefore⟩
  settled d c x s hallows hx hI hsettles hdue := h.settled d c x s hallows hx hI hsettles hdue.2

/-- All threads make calls that are in order and pay, and what is due is owed by one of them. -/
structure Debts.Balanced [DecidableEq ι] (B : Debts t D) (I : S → Prop) (due : D → S → Prop)
    (pool : Pool σ ε S ι) : Prop where
  invariant : I pool.state
  complies : ∀ i, Complies t (fun _ ↦ True) (pool.threads i)
  solvent : ∀ i, Solvent B (pool.threads i)
  owed : ∀ d, due d pool.state → ∃ i, Owes B d (pool.threads i)

section Run

variable [DecidableEq ι] [Nonempty ε] {m : Machine σ ε S X} {I : S → Prop} {due : D → S → Prop}
  {pool pool' : Pool σ ε S ι}

theorem Debts.Balanced.step (hbooked : B.Booked m I due) {e : Event σ X ι}
    (step : Pool.Step m pool e pool') (h : B.Balanced I due pool) :
    t.allows e.call ∧ B.Balanced I due pool' := by
  obtain ⟨hnext, hx⟩ := step
  rename_i i c x k
  have hcomplies := h.complies i
  have hsolvent := h.solvent i
  rw [hnext] at hcomplies hsolvent
  obtain ⟨hallows, hrest⟩ := Complies.call hcomplies
  obtain ⟨hI, hanswer⟩ := hbooked.keeps c x pool.state hallows hx h.invariant
  obtain ⟨hincurs, hsolvent'⟩ := hsolvent _ hanswer
  refine ⟨hallows, hI, fun j ↦ ?_, fun j ↦ ?_, fun d hdue ↦ ?_⟩
  · by_cases hij : j = i
    · subst hij
      simpa using hrest _ hanswer
    · simpa [Function.update_of_ne hij] using h.complies j
  · by_cases hij : j = i
    · subst hij
      simpa using hsolvent'
    · simpa [Function.update_of_ne hij] using h.solvent j
  · -- the caller still owes what was due unless its call has settled it
    have hcaller : B.settles d c (m.respond c x pool.state).1 ∨
        Owes B d (k (m.respond c x pool.state).1) →
        ∃ j, Owes B d (Function.update pool.threads i (k (m.respond c x pool.state).1) j) := by
      intro howes
      obtain hsettles | howes := howes
      · exact absurd hdue (hbooked.settled d c x pool.state hallows hx h.invariant hsettles)
      · exact ⟨i, by simpa using howes⟩
    obtain hbefore | hnew := hbooked.incurred d c x pool.state hallows hx h.invariant hdue
    · obtain ⟨j, howes⟩ := h.owed d hbefore
      by_cases hij : j = i
      · subst hij
        rw [hnext] at howes
        exact hcaller (howes _ hanswer)
      · exact ⟨j, by simpa [Function.update_of_ne hij] using howes⟩
    · exact hcaller (hincurs d hnew)

theorem Debts.Balanced.run (hbooked : B.Booked m I due) {events : List (Event σ X ι)}
    (run : Pool.Run m pool events pool') (h : B.Balanced I due pool) :
    (∀ e ∈ events, t.allows e.call) ∧ B.Balanced I due pool' := by
  induction run with
  | start => exact ⟨fun _ he ↦ (nomatch he), h⟩
  | step _ last ih =>
    obtain ⟨hevents, hbalanced⟩ := ih
    obtain ⟨hallows, hbalanced'⟩ := hbalanced.step hbooked last
    refine ⟨fun e he ↦ ?_, hbalanced'⟩
    obtain he | he := List.mem_append.mp he
    · exact hevents e he
    · rw [List.mem_singleton.mp he]
      exact hallows

omit [Nonempty ε] in
/-- Nothing is due when all threads are done. -/
theorem Debts.Balanced.nothing_due (h : B.Balanced I due pool)
    (hdone : ∀ i, ∃ r, pool.threads i = Program.ofExcept r) (d : D) : ¬ due d pool.state := by
  intro hdue
  obtain ⟨i, howes⟩ := h.owed d hdue
  obtain ⟨r, hr⟩ := hdone i
  rw [hr] at howes
  cases r <;> exact howes

end Run

end AsyncProgram
