import PrivosCluster.AsyncProgram.Debts
import PrivosCluster.AsyncProgram.RelyGuarantee

/-!
# One task among parallel tasks

A task of a batch is verified on its own when the calls of the other tasks, and the question whose
turn it is, change the state no further than the task relies on.
-/

namespace AsyncProgram

variable {σ : Signature} {ε S X α β : Type}

/-- Every call is in order, and every answer admissible. -/
def Terms.lax [Nonempty ε] : Terms σ ε where
  allows _ := True
  answers _ _ := True
  answerable _ := ⟨.error (Classical.choice inferInstance), trivial⟩

variable {I : S → Prop} {Q : Except ε α → S → Prop} {p : Program σ ε α} {q : Program σ ε β}

/-- A batch of tasks does not throw. -/
theorem wp_allSettled [Nonempty ε] {m : Machine σ ε S X} {G : σ.Call → X → S → Prop}
    {sched : Scheduler σ ε} {tasks : List (Program σ ε α)} {s : S}
    (h : wp m G (fun _ ↦ I) (Program.allSettled sched tasks) s) :
    wp m G (onOutcome (fun _ ↦ I) fun _ _ ↦ False) (Program.allSettled sched tasks) s := by
  have hreturns := Returns.allSettled (t := Terms.lax) (s := sched) tasks
  generalize Program.allSettled sched tasks = batch at h hreturns
  induction batch generalizing s with
  | pure a => exact h
  | throw e => exact hreturns.elim
  | call c k ih => exact fun x hx ↦ ⟨(h x hx).1, ih _ (h x hx).2 (hreturns _ trivial)⟩

/-- A contract that only bounds what others do. -/
def Contract.relying {R : S → S → Prop} (refl : ∀ s, R s s)
    (trans : ∀ s s' s'', R s s' → R s' s'' → R s s'') : Contract σ ε S X Unit where
  track h _ _ := h
  assumes _ _ _ := True
  rely _ := R
  ensures _ _ _ _ := True
  rely_refl _ := refl
  rely_trans _ := trans

section Relying

variable {m : Machine σ ε S X} {R : S → S → Prop} {refl : ∀ s, R s s}
  {trans : ∀ s s' s'', R s s' → R s' s'' → R s s''} {P : σ.Call → Prop} {sched : Scheduler σ ε}
  {s s' : S}

/-- What holds of a task among others holds of it alone. -/
theorem Among.wp (h : Among m (.relying refl trans) (fun r _ ↦ Q r) p () s) :
    wp m (fun _ _ _ ↦ True) Q p s := by
  induction p generalizing s with
  | pure a => exact h
  | throw e => exact h
  | call c k ih =>
    intro x hx
    obtain ⟨-, hrest⟩ := h s (refl s) x hx trivial
    exact ⟨trivial, ih _ hrest⟩

/-- Calls that others may make keep what others keep. -/
theorem Among.harmless (hp : Asks P p)
    (hcalls : ∀ c x s, P c → m.permits c x s → R s (m.respond c x s).2)
    (hstable : ∀ s s', R s s' → I s → I s') (hI : I s) :
    Among m (.relying refl trans) (fun _ _ ↦ I) p () s := by
  apply Among.keeps (I := fun _ ↦ I) hp (fun _ ↦ hstable) _ hI
  intro _ c x s hc hx _ hs
  exact ⟨trivial, hstable _ _ (hcalls c x s hc hx) hs⟩

/-- A batch of two has ended, the first of them like this. -/
def FirstEnds (Q : Except ε α → S → Prop) (r : Except ε (Except ε α × β)) (s : S) : Prop :=
  ∃ a b, r = .ok (a, b) ∧ Q a s

/-- A batch of two has ended, the second of them like this. -/
def SecondEnds (Q : Except ε β → S → Prop) (r : Except ε (α × Except ε β)) (s : S) : Prop :=
  ∃ a b, r = .ok (a, b) ∧ Q b s

theorem Among.settled_first {b : β} (h : Among m (.relying refl trans) (fun r _ ↦ Q r) p () s) :
    Among m (.relying refl trans) (fun r _ ↦ FirstEnds Q r)
      (p.settle >>= fun a ↦ .pure (a, b)) () s := by
  apply Among.bind (R := onExit (fun a _ ↦ Q a) fun _ _ _ ↦ False) (Among.settle h)
  · exact fun a _ s hQ ↦ ⟨a, b, rfl, hQ⟩
  · exact fun _ _ _ hfalse ↦ hfalse.elim

theorem Among.settled_second {Q : Except ε β → S → Prop} {a : α}
    (h : Among m (.relying refl trans) (fun r _ ↦ Q r) q () s) :
    Among m (.relying refl trans) (fun r _ ↦ SecondEnds Q r)
      (q.settle >>= fun b ↦ .pure (a, b)) () s := by
  apply Among.bind (R := onExit (fun b _ ↦ Q b) fun _ _ _ ↦ False) (Among.settle h)
  · exact fun b _ s hQ ↦ ⟨a, b, rfl, hQ⟩
  · exact fun _ _ _ hfalse ↦ hfalse.elim

section Batch

variable (hturn : P sched.turn) (hcalls : ∀ c x s, P c → m.permits c x s → R s (m.respond c x s).2)

include hcalls

/-- A task that is over stays as it ended while another, harmless one goes on. -/
theorem Among.over_first {a : Except ε α} (hstable : ∀ r s s', R s s' → Q r s → Q r s')
    (hq : Asks P q) (ha : Q a s) :
    Among m (.relying refl trans) (fun r _ ↦ FirstEnds Q r)
      (q.settle >>= fun b ↦ .pure (a, b)) () s := by
  have hkept : Among m (.relying refl trans) (fun _ _ ↦ Q a) q () s :=
    Among.harmless hq hcalls (hstable a) ha
  apply Among.bind (R := onExit (fun _ _ ↦ Q a) fun _ _ _ ↦ False) (Among.settle hkept)
  · exact fun b _ s hQ ↦ ⟨a, b, rfl, hQ⟩
  · exact fun _ _ _ hfalse ↦ hfalse.elim

theorem Among.over_second {Q : Except ε β → S → Prop} {b : Except ε β}
    (hstable : ∀ r s s', R s s' → Q r s → Q r s') (hp : Asks P p) (hb : Q b s) :
    Among m (.relying refl trans) (fun r _ ↦ SecondEnds Q r)
      (p.settle >>= fun a ↦ .pure (a, b)) () s := by
  have hkept : Among m (.relying refl trans) (fun _ _ ↦ Q b) p () s :=
    Among.harmless hp hcalls (hstable b) hb
  apply Among.bind (R := onExit (fun _ _ ↦ Q b) fun _ _ _ ↦ False) (Among.settle hkept)
  · exact fun a _ s hQ ↦ ⟨a, b, rfl, hQ⟩
  · exact fun _ _ _ hfalse ↦ hfalse.elim

include hturn

/-- The task whose turn it is goes on, whatever the other did before. -/
theorem Among.parCall {Q : Except ε (Except ε α × Except ε β) → S → Prop} {c : σ.Call}
    {k : Except ε (σ.Answer c) → Program σ ε α}
    {rest : Except ε (σ.Answer c) → Program σ ε β → Program σ ε (Except ε α × Except ε β)}
    {I : Program σ ε β → S → Prop} (hI : ∀ q s s', R s s' → I q s → I q s')
    (hover : ∀ b s, I (Program.ofExcept b) s →
      Among m (.relying refl trans) (fun r _ ↦ Q r)
        ((Program.call c k).settle >>= fun a ↦ .pure (a, b)) () s)
    (hleft : ∀ q s, I q s → ∀ x, m.permits c x s →
      Among m (.relying refl trans) (fun r _ ↦ Q r) (rest (m.respond c x s).1 q) ()
        (m.respond c x s).2) (hright : ∀ d l s, I (.call d l) s → ∀ x, m.permits d x s →
      I (l (m.respond d x s).1) (m.respond d x s).2) (hq : I q s) :
    Among m (.relying refl trans) (fun r _ ↦ Q r) (Program.parCall sched c k rest q) () s := by
  induction q generalizing s with
  | pure b => exact hover (.ok b) s hq
  | throw e => exact hover (.error e) s hq
  | call d l ih =>
    intro s₁ hrely₁ x₁ hx₁ _
    refine ⟨trivial, ?_⟩
    have hq₁ := hI _ _ _ (hcalls _ _ _ hturn hx₁) (hI _ _ _ hrely₁ hq)
    dsimp only
    split
    · intro s₂ hrely₂ x₂ hx₂ _
      exact ⟨trivial, hleft _ _ (hI _ _ _ hrely₂ hq₁) x₂ hx₂⟩
    · intro s₂ hrely₂ x₂ hx₂ _
      exact ⟨trivial, ih _ (hright _ _ _ (hI _ _ _ hrely₂ hq₁) x₂ hx₂)⟩

/-- A task keeps its contract beside another task that is harmless. -/
theorem Among.par_first (hstable : ∀ r s s', R s s' → Q r s → Q r s') (hq : Asks P q)
    (hp : Among m (.relying refl trans) (fun r _ ↦ Q r) p () s) :
    Among m (.relying refl trans) (fun r _ ↦ FirstEnds Q r) (Program.par sched p q) () s := by
  induction p generalizing q s with
  | pure a => exact Among.over_first hcalls hstable hq hp
  | throw e => exact Among.over_first hcalls hstable hq hp
  | call c k ih =>
    apply Among.parCall hturn hcalls (I := fun q s ↦
      Asks P q ∧ Among m (.relying refl trans) (fun r _ ↦ Q r) (.call c k) () s) _ _ _ _ ⟨hq, hp⟩
    · intro q s s' hR hI
      exact ⟨hI.1, hI.2.stable (fun r _ ↦ hstable r) hR⟩
    · exact fun b s hI ↦ Among.settled_first hI.2
    · intro q s hI x hx
      exact ih _ hI.1 (hI.2 s (refl s) x hx trivial).2
    · intro d l s hI x hx
      exact ⟨hI.1.2 _, hI.2.stable (fun r _ ↦ hstable r) (hcalls d x s hI.1.1 hx)⟩

/-- The same for the second of two tasks. -/
theorem Among.par_second {Q : Except ε β → S → Prop} (hstable : ∀ r s s', R s s' → Q r s → Q r s')
    (hp : Asks P p) (hq : Among m (.relying refl trans) (fun r _ ↦ Q r) q () s) :
    Among m (.relying refl trans) (fun r _ ↦ SecondEnds Q r) (Program.par sched p q) () s := by
  induction p generalizing q s with
  | pure a => exact Among.settled_second hq
  | throw e => exact Among.settled_second hq
  | call c k ih =>
    apply Among.parCall hturn hcalls
      (I := fun q s ↦ Among m (.relying refl trans) (fun r _ ↦ Q r) q () s) _ _ _ _ hq
    · exact fun q s s' hR hI ↦ hI.stable (fun r _ ↦ hstable r) hR
    · intro b s hI
      apply Among.over_second hcalls hstable hp
      cases b <;> exact hI
    · intro q s hI x hx
      exact ih _ (hp.2 _) (hI.stable (fun r _ ↦ hstable r) (hcalls c x s hp.1 hx))
    · exact fun d l s hI x hx ↦ (hI s (refl s) x hx trivial).2

/-- One task of a batch keeps its contract if the others are harmless. -/
theorem Among.allSettled {Q : S → Prop} {before after : List (Program σ ε α)}
    {task : Program σ ε α} (hstable : ∀ s s', R s s' → Q s → Q s')
    (hbefore : ∀ other ∈ before, Asks P other) (hafter : ∀ other ∈ after, Asks P other)
    (htask : Among m (.relying refl trans) (fun _ _ ↦ Q) task () s) :
    Among m (.relying refl trans) (fun _ _ ↦ Q)
      (Program.allSettled sched (before ++ task :: after)) () s := by
  have hstable' : ∀ {γ : Type} (r : Except ε γ) s s', R s s' → Q s → Q s' := fun _ ↦ hstable
  induction before with
  | nil =>
    have hpar := Among.par_first hturn hcalls hstable' (Asks.allSettled hturn hafter) htask
    apply Among.bind hpar
    · rintro ⟨first, others⟩ _ s ⟨a, b, -, hQ⟩
      exact hQ
    · exact nofun
  | cons other before ih =>
    have hrest := ih fun other hother ↦ hbefore other (List.mem_cons_of_mem _ hother)
    have hpar := Among.par_second hturn hcalls hstable' (hbefore other List.mem_cons_self) hrest
    apply Among.bind hpar
    · rintro ⟨first, others⟩ _ s ⟨a, b, -, hQ⟩
      exact hQ
    · exact nofun

end Batch

end Relying

end AsyncProgram
