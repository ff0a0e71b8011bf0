import PrivosCluster.AsyncProgram.Interleaving

/-!
# Delegation and terms of use

A service carries out the calls of a program by programs over calls of another signature. What a
program may call, given what it is answered, is stated without a machine: terms say which calls
are in order and which answers are admissible. A program that complies with its terms meets the
discipline of every machine that admits those calls and gives those answers, and delegating its
calls to programs that comply with other terms gives a program that complies with these.
-/

namespace AsyncProgram

variable {σ τ : Signature} {ε S X α β : Type}

namespace Program

/-- Every call of the program is carried out by a program of other calls. -/
def delegate (handler : (c : σ.Call) → Program τ ε (σ.Answer c)) : Program σ ε α → Program τ ε α
  | .pure a => .pure a
  | .throw e => .throw e
  | .call c k => do
    let answer ← (handler c).settle
    delegate handler (k answer)

@[simp] theorem delegate_pure (a : α) : (Program.pure a).delegate handler = .pure a := rfl

@[simp] theorem delegate_throw (e : ε) :
    (Program.throw e : Program σ ε α).delegate handler = .throw e := rfl

variable {handler : (c : σ.Call) → Program τ ε (σ.Answer c)}

theorem delegate_call (c : σ.Call) (k : Except ε (σ.Answer c) → Program σ ε α) :
    (Program.call c k).delegate handler =
      (handler c).settle >>= fun answer ↦ (k answer).delegate handler := rfl

/-- Delegating a sequence delegates its halves. -/
theorem delegate_bind (p : Program σ ε α) (f : α → Program σ ε β) :
    (p >>= f).delegate handler = p.delegate handler >>= fun a ↦ (f a).delegate handler := by
  induction p with
  | pure a => rfl
  | throw e => rfl
  | call c k ih =>
    rw [call_bind, delegate_call, delegate_call, bind_assoc]
    congr 1
    funext answer
    exact ih answer

end Program

/-- Which calls are in order, and which answers a call may get. Some answer is always admissible. -/
structure Terms (σ : Signature) (ε : Type) where
  allows : σ.Call → Prop
  answers : (c : σ.Call) → Except ε (σ.Answer c) → Prop
  answerable : ∀ c, ∃ answer, answers c answer

/-- The machine that gives any admissible answer; its state says whether all calls were in order. -/
def Terms.ledger (t : Terms σ ε) : Machine σ ε Prop ((c : σ.Call) → Except ε (σ.Answer c)) where
  permits c x _ := t.answers c (x c)
  respond c x inOrder := (x c, inOrder ∧ t.allows c)

/-- All calls of the program are in order, and what it returns satisfies `Q`. -/
abbrev Complies (t : Terms σ ε) (Q : α → Prop) (p : Program σ ε α) : Prop :=
  Meets t.ledger (.keep fun inOrder ↦ inOrder) Q p

section Complies

variable {t : Terms σ ε} {Q : α → Prop}

theorem Complies.await {c : σ.Call} {Q : σ.Answer c → Prop} (h : t.allows c)
    (hQ : ∀ a, t.answers c (.ok a) → Q a) : Complies t Q (Program.ask c) := by
  apply Meets.ask
  intro x inOrder hs hx
  refine ⟨⟨hs, h⟩, fun a ha ↦ hQ a ?_⟩
  have hok : x c = .ok a := ha
  exact hok ▸ hx

/-- The outcome of one call is an admissible answer. -/
theorem Complies.outcome {c : σ.Call} (h : t.allows c) :
    Complies t (t.answers c) (Program.ask c).settle := by
  intro x inOrder hs hx
  refine ⟨⟨hs, h⟩, ?_⟩
  have hx' : t.answers c (x c) := hx
  cases hanswer : x c <;> rw [hanswer] at hx' <;>
    simpa only [Terms.ledger, hanswer, Program.settle, Meets] using hx'

theorem Complies.call [Nonempty ε] {c : σ.Call} {k : Except ε (σ.Answer c) → Program σ ε α}
    (h : Complies t Q (.call c k)) :
    t.allows c ∧ ∀ answer, t.answers c answer → Complies t Q (k answer) := by
  classical
  obtain ⟨e⟩ := ‹Nonempty ε›
  have hstep : ∀ answer, t.answers c answer → t.allows c ∧ Complies t Q (k answer) := by
    intro answer hanswer
    let x : (c' : σ.Call) → Except ε (σ.Answer c') :=
      Function.update (fun _ ↦ .error e) c answer
    have hx : x c = answer := Function.update_self ..
    obtain ⟨⟨-, hallows⟩, hrest⟩ := h x True trivial (show t.answers c (x c) from hx ▸ hanswer)
    refine ⟨hallows, ?_⟩
    have hrest' : Complies t Q (k (x c)) := hrest
    rwa [hx] at hrest'
  obtain ⟨answer, hanswer⟩ := t.answerable c
  exact ⟨(hstep answer hanswer).1, fun answer hanswer ↦ (hstep answer hanswer).2⟩

/-- A program that complies meets the discipline of every machine that keeps to the terms. -/
theorem Complies.meets [Nonempty ε] {m : Machine σ ε S X} {D : Discipline σ S} {p : Program σ ε α}
    (h : Complies t Q p)
    (hcall : ∀ c x s, t.allows c → D.assumes c s → m.permits c x s →
      D.ensures s (m.respond c x s).2 ∧ t.answers c (m.respond c x s).1) :
    Meets m D Q p := by
  induction p with
  | pure a => exact h
  | throw e => trivial
  | call c k ih =>
    obtain ⟨hallows, hrest⟩ := Complies.call h
    intro x s hs hx
    obtain ⟨hensures, hanswer⟩ := hcall c x s hallows hs hx
    exact ⟨hensures, ih _ (hrest _ hanswer)⟩

/-- The delegate complies with the terms of the programs that carry the calls out. -/
theorem Complies.delegate [Nonempty ε] {t' : Terms τ ε}
    {handler : (c : σ.Call) → Program τ ε (σ.Answer c)} {p : Program σ ε α} (h : Complies t Q p)
    (hhandler : ∀ c, t.allows c → Complies t' (t.answers c) (handler c).settle) :
    Complies t' Q (p.delegate handler) := by
  induction p with
  | pure a => exact h
  | throw e => trivial
  | call c k ih =>
    obtain ⟨hallows, hrest⟩ := Complies.call h
    apply Meets.bind (hhandler c hallows)
    intro answer hanswer
    exact ih answer (hrest answer hanswer)

/-- Threads that comply, each with its own terms, do so through a run of a machine that keeps to
the terms of all of them. -/
theorem Pool.Run.complies {ι : Type} [DecidableEq ι] [Nonempty ε] {m : Machine σ ε S X}
    {t : ι → Terms σ ε} {I : S → Prop} {pool pool' : Pool σ ε S ι} {events : List (Event σ X ι)}
    (run : Pool.Run m pool events pool')
    (hkeeps : ∀ i c x s, (t i).allows c → m.permits c x s → I s →
      I (m.respond c x s).2 ∧ (t i).answers c (m.respond c x s).1)
    (hthreads : ∀ i, Complies (t i) (fun _ ↦ True) (pool.threads i)) (hI : I pool.state) :
    (∀ e ∈ events, (t e.thread).allows e.call) ∧ I pool'.state ∧
      ∀ i, Complies (t i) (fun _ ↦ True) (pool'.threads i) := by
  induction run with
  | start => exact ⟨(nofun), hI, hthreads⟩
  | @step events pool' pool'' e _ last ih =>
    obtain ⟨hevents, hI', hcomplies⟩ := ih
    obtain ⟨hnext, hx⟩ := last
    rename_i i c x k
    have hi := hcomplies i
    rw [hnext] at hi
    obtain ⟨hallows, hrest⟩ := Complies.call hi
    obtain ⟨hI'', hanswer⟩ := hkeeps i c x _ hallows hx hI'
    refine ⟨fun e he ↦ ?_, hI'', fun j ↦ ?_⟩
    · obtain he | he := List.mem_append.mp he
      · exact hevents e he
      · rw [List.mem_singleton.mp he]
        exact hallows
    · by_cases hij : j = i
      · subst hij
        simpa using hrest _ hanswer
      · simpa [Function.update_of_ne hij] using hcomplies j

end Complies

/-! ## What threads learn -/

section Learning

variable {ι F : Type} [DecidableEq ι] [Nonempty ε] {m : Machine σ ε S X}
  {terms : (F → Prop) → Terms σ ε}

/-- The thread complies with the terms of everything known, once that includes `known`. -/
def Justified (terms : (F → Prop) → Terms σ ε) (known : F → Prop) (p : Program σ ε Unit) : Prop :=
  ∀ K : F → Prop, (∀ f, known f → K f) → Complies (terms K) (fun _ ↦ True) p

omit [Nonempty ε] in
theorem Justified.mono {known known' : F → Prop} {p : Program σ ε Unit}
    (h : Justified terms known p) (hknown : ∀ f, known f → known' f) : Justified terms known' p :=
  fun K hK ↦ h K fun f hf ↦ hK f (hknown f hf)

/--
A call of a thread is in order on the ground of what the thread knew before it, and after it the
thread knows what it was answered. The other threads go on as before.
-/
theorem Pool.Step.justified {pool pool' : Pool σ ε S ι} {e : Event σ X ι}
    (step : Pool.Step m pool e pool')
    (learns : (c : σ.Call) → Except ε (σ.Answer c) → F → Prop)
    (hanswers : ∀ K c x s, m.permits c x s → (terms K).allows c →
      (∀ f, learns c (m.respond c x s).1 f → K f) → (terms K).answers c (m.respond c x s).1)
    {known : F → Prop} (h : Justified terms known (pool.threads e.thread)) :
    (terms known).allows e.call ∧
      Justified terms
        (fun f ↦ known f ∨ learns e.call (m.respond e.call e.choice pool.state).1 f)
        (pool'.threads e.thread) ∧
      ∀ i, i ≠ e.thread → pool'.threads i = pool.threads i := by
  obtain ⟨hnext, hx⟩ := step
  rename_i i c x k
  rw [hnext] at h
  refine ⟨(Complies.call (h known fun _ hf ↦ hf)).1, fun K hK ↦ ?_,
    fun j hj ↦ Function.update_of_ne hj ..⟩
  obtain ⟨hallows, hrest⟩ := Complies.call (h K fun f hf ↦ hK f (.inl hf))
  have hcomplies := hrest _ (hanswers K c x pool.state hx hallows fun f hf ↦ hK f (.inr hf))
  simpa using hcomplies

end Learning

end AsyncProgram
