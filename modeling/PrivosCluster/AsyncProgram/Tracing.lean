import PrivosCluster.AsyncProgram.Execution

/-!
# Postconditions on the calls of a run

A postcondition may speak of the calls a run made and of the choices they met, besides the
outcome and the final state. In a sequence the calls of the halves are put one after the other.
-/

namespace AsyncProgram

open List

variable {σ : Signature} {ε S X α β : Type}

/-- Every completed run ends in `Q`, which sees the calls made on the way. -/
def Traces (m : Machine σ ε S X) (Q : Except ε α → S → List (σ.Call × X) → Prop) :
    Program σ ε α → S → Prop
  | .pure a, s => Q (.ok a) s []
  | .throw e, s => Q (.error e) s []
  | .call c k, s => ∀ x, m.permits c x s →
      Traces m (fun r s' calls ↦ Q r s' ((c, x) :: calls)) (k (m.respond c x s).1)
        (m.respond c x s).2

variable {Q' : Except ε α → S → List (σ.Call × X) → Prop} {e : ε} {f : α → Program σ ε β}
  {r : Except ε α} {c : Prop} {last : Program σ ε Unit} {body : α → Program σ ε Unit} {o : Option α}
  {handler : ε → Program σ ε α} {xs : List α} {calls : List (σ.Call × X)}

namespace Traces

variable {m : Machine σ ε S X} {s s' : S}

variable {Q : Except ε α → S → List (σ.Call × X) → Prop} {p : Program σ ε α}

theorem imp (h : Traces m Q p s) (hQ : ∀ r s calls, Q r s calls → Q' r s calls) :
    Traces m Q' p s := by
  induction p generalizing s Q Q' with
  | pure a => exact hQ _ _ _ h
  | throw e => exact hQ _ _ _ h
  | call c k ih => exact fun x hx ↦ ih _ (h x hx) fun r s calls ↦ hQ r s ((c, x) :: calls)

theorem pure {a : α} (h : Q (.ok a) s []) : Traces m Q (.pure a) s := h

theorem throw (h : Q (.error e) s []) : Traces m Q (.throw e) s := h

theorem ask {c : σ.Call} {Q : Except ε (σ.Answer c) → S → List (σ.Call × X) → Prop}
    (h : ∀ x, m.permits c x s → Q (m.respond c x s).1 (m.respond c x s).2 [(c, x)]) :
    Traces m Q (Program.ask c) s := by
  intro x hx
  have hQ := h x hx
  cases hr : (m.respond c x s).1 <;> rw [hr] at hQ <;> exact hQ

variable {R : Except ε α → S → List (σ.Call × X) → Prop}

/-- Sequencing: what the second half does comes after what the first half did. -/
theorem bind {Q : Except ε β → S → List (σ.Call × X) → Prop} (hp : Traces m R p s)
    (hok : ∀ a s' calls, R (.ok a) s' calls →
      Traces m (fun r s'' calls' ↦ Q r s'' (calls ++ calls')) (f a) s')
    (herror : ∀ e s' calls, R (.error e) s' calls → Q (.error e) s' calls) :
    Traces m Q (p >>= f) s := by
  induction p generalizing s Q R with
  | pure a => exact hok a s [] hp
  | throw e => exact herror e s [] hp
  | call c k ih =>
    exact fun x hx ↦ ih _ (hp x hx) (fun a s' calls ↦ hok a s' ((c, x) :: calls))
      fun e s' calls ↦ herror e s' ((c, x) :: calls)

/-- Sequencing in the middle of a run, after the calls so far. -/
theorem bind_after {Q : Except ε β → S → List (σ.Call × X) → Prop} {before : List (σ.Call × X)}
    (hp : Traces m (fun r s' calls ↦ R r s' (before ++ calls)) p s)
    (hok : ∀ a s' calls, R (.ok a) s' calls →
      Traces m (fun r s'' calls' ↦ Q r s'' (calls ++ calls')) (f a) s')
    (herror : ∀ e s' calls, R (.error e) s' calls → Q (.error e) s' calls) :
    Traces m (fun r s' calls ↦ Q r s' (before ++ calls)) (p >>= f) s := by
  apply hp.bind
  · intro a s' calls hR
    apply (hok a s' _ hR).imp
    intro r s'' calls' hQ
    rwa [append_assoc] at hQ
  · exact fun e s' calls hR ↦ herror e s' _ hR

theorem settle {Q : Except ε (Except ε α) → S → List (σ.Call × X) → Prop}
    (h : Traces m (fun r s' calls ↦ Q (.ok r) s' calls) p s) : Traces m Q p.settle s := by
  induction p generalizing s Q with
  | pure a => exact h
  | throw e => exact h
  | call c k ih => exact fun x hx ↦ ih _ (h x hx)

/-- What follows a program that is let fail. -/
theorem settle_bind {Q : Except ε β → S → List (σ.Call × X) → Prop}
    {f : Except ε α → Program σ ε β} (hp : Traces m R p s) (h : ∀ r s' calls, R r s' calls →
      Traces m (fun r' s'' calls' ↦ Q r' s'' (calls ++ calls')) (f r) s') :
    Traces m Q (p.settle >>= f) s := by
  induction p generalizing s Q R with
  | pure a => exact h (.ok a) s [] hp
  | throw e => exact h (.error e) s [] hp
  | call c k ih => exact fun x hx ↦ ih _ (hp x hx) fun r s' calls ↦ h r s' ((c, x) :: calls)

theorem ofExcept (h : Q r s []) : Traces m Q (Program.ofExcept r) s := by
  cases r <;> exact h

theorem throwIf {Q : Except ε Unit → S → List (σ.Call × X) → Prop} [Decidable c]
    (herror : c → Q (.error e) s []) (hok : ¬ c → Q (.ok ()) s []) :
    Traces m Q (Program.throwIf c e) s := by
  unfold Program.throwIf
  split
  next hc => exact herror hc
  next hc => exact hok hc

/-- A check in front of a program. -/
theorem guard [Decidable c] (herror : c → Q (.error e) s []) (hok : ¬ c → Traces m Q p s) :
    Traces m Q (Program.throwIf c e >>= fun _ ↦ p) s := by
  unfold Program.throwIf
  split
  next hc => exact herror hc
  next hc => exact hok hc

theorem ofExcept_bind {Q : Except ε β → S → List (σ.Call × X) → Prop}
    (herror : ∀ e, r = .error e → Q (.error e) s []) (hok : ∀ a, r = .ok a → Traces m Q (f a) s) :
    Traces m Q (Program.ofExcept r >>= f) s := by
  cases r with
  | ok a => exact hok a rfl
  | error e => exact herror e rfl

theorem finallyDo (h : Traces m (fun r s' calls ↦
      Traces m (fun r' s'' calls' ↦
        match r' with
        | .ok _ => Q r s'' (calls ++ calls')
        | .error e => Q (.error e) s'' (calls ++ calls')) last s') p s) :
    Traces m Q (p.finallyDo last) s := by
  refine (settle h).bind (R := fun r s' calls ↦ match r with
    | .ok r => Traces m (fun r' s'' calls' ↦
        match r' with
        | .ok _ => Q r s'' (calls ++ calls')
        | .error e => Q (.error e) s'' (calls ++ calls')) last s'
    | .error _ => False) (fun r s' calls hr ↦ ?_) fun e s' calls hr ↦ hr.elim
  refine Traces.bind hr (fun _ s'' calls' hr' ↦ ?_) fun e s'' calls' hr' ↦ hr'
  refine ofExcept ?_
  simpa using hr'

theorem onlyIf {Q : Except ε Unit → S → List (σ.Call × X) → Prop} [Decidable c]
    {p : Program σ ε Unit} (hskip : ¬ c → Q (.ok ()) s []) (hp : c → Traces m Q p s) :
    Traces m Q (Program.onlyIf c p) s := by
  unfold Program.onlyIf
  split
  next hc => exact hp hc
  next hc => exact hskip hc

theorem forSome {Q : Except ε Unit → S → List (σ.Call × X) → Prop}
    (hnone : o = none → Q (.ok ()) s []) (hsome : ∀ a, o = some a → Traces m Q (body a) s) :
    Traces m Q (Program.forSome o body) s := by
  cases o with
  | none => exact hnone rfl
  | some a => exact hsome a rfl

/-- The handler goes on where the program failed. -/
theorem tryCatch (h : Traces m (fun r s' calls ↦
      match r with
      | .ok a => Q (.ok a) s' calls
      | .error e => Traces m (fun r s'' calls' ↦ Q r s'' (calls ++ calls')) (handler e) s') p s) :
    Traces m Q (p.tryCatch handler) s := by
  induction p generalizing s Q with
  | pure a => exact h
  | throw e => exact h
  | call c k ih => exact fun x hx ↦ ih _ (h x hx)

/-- The loop rule: an invariant over the elements done, and what a failure leaves. -/
theorem foldEach {body : β → α → Program σ ε β} {I : List α → β → S → List (σ.Call × X) → Prop}
    {F : ε → S → List (σ.Call × X) → Prop}
    (step : ∀ visited x rest b s calls, xs = visited ++ x :: rest → I visited b s calls →
      Traces m (fun r s' calls' ↦
        match r with
        | .ok b => I (visited ++ [x]) b s' (calls ++ calls')
        | .error e => F e s' (calls ++ calls')) (body b x) s) {b : β} (start : I [] b s []) :
    Traces m (fun r s' calls ↦
      match r with
      | .ok b => I xs b s' calls
      | .error e => F e s' calls) (Program.foldEach body b xs) s := by
  suffices h : ∀ rest visited b s calls, xs = visited ++ rest → I visited b s calls →
      Traces m (fun r s' calls' ↦
        match r with
        | .ok b => I xs b s' (calls ++ calls')
        | .error e => F e s' (calls ++ calls')) (Program.foldEach body b rest) s from
    h xs [] b s [] rfl start
  intro rest
  induction rest with
  | nil =>
    intro visited b s calls hxs h
    have hend : I xs b s (calls ++ []) := by
      rw [hxs, append_nil, append_nil]
      exact h
    exact hend
  | cons x rest ih =>
    intro visited b s calls hxs h
    apply (step visited x rest b s calls hxs h).bind
    · intro b' s' calls' hb'
      apply (ih (visited ++ [x]) b' s' (calls ++ calls') (by simp [hxs]) hb').imp
      intro r s'' calls'' hr
      rwa [append_assoc] at hr
    · exact fun e s' calls' he ↦ he

/-- What the law asks of every choice holds of the calls made. -/
theorem permitted {P : σ.Call → X → Prop} (h : Traces m Q p s)
    (hP : ∀ c x s, m.permits c x s → P c x) :
    Traces m (fun r s' calls ↦ Q r s' calls ∧ ∀ event ∈ calls, P event.1 event.2) p s := by
  induction p generalizing s Q with
  | pure a => exact ⟨h, nofun⟩
  | throw e => exact ⟨h, nofun⟩
  | call c k ih =>
    refine fun x hx ↦ (ih _ (h x hx)).imp fun r s' calls hr ↦ ⟨hr.1, fun event hevent ↦ ?_⟩
    obtain rfl | hevent := mem_cons.mp hevent
    · exact hP _ _ _ hx
    · exact hr.2 event hevent

/-- The record of a machine that keeps one grows by the calls of the run. -/
theorem wp_traced (h : Traces m Q p s) (before : List (σ.Call × X)) :
    wp m.traced (fun _ _ _ ↦ True) (fun r s' ↦ ∃ calls, s'.2 = before ++ calls ∧ Q r s'.1 calls) p
      (s, before) := by
  induction p generalizing s before Q with
  | pure a => exact ⟨[], (append_nil _).symm, h⟩
  | throw e => exact ⟨[], (append_nil _).symm, h⟩
  | call c k ih =>
    refine fun x hx ↦ ⟨trivial, (ih _ (h x hx) (before ++ [(c, x)])).imp fun r s' hr ↦ ?_⟩
    obtain ⟨calls, hcalls, hQ⟩ := hr
    exact ⟨(c, x) :: calls, by simp [hcalls], hQ⟩

/-- A completed execution that starts with an empty record. -/
theorem post (h : Traces m Q p s) (run : Executes m.traced p (s, []) (.ofExcept r) (s', calls)) :
    Q r s' calls := by
  obtain ⟨calls', hcalls, hQ⟩ := run.post (h.wp_traced [])
  obtain rfl : calls = calls' := hcalls.trans (nil_append calls')
  exact hQ

/-- A postcondition that does not look at the calls. -/
theorem of_wp {G : σ.Call → X → S → Prop} {Q : Except ε α → S → Prop} (h : wp m G Q p s) :
    Traces m (fun r s' _ ↦ Q r s') p s := by
  induction p generalizing s with
  | pure a => exact h
  | throw e => exact h
  | call c k ih => exact fun x hx ↦ ih _ (h x hx).2

theorem and (h : Traces m Q p s) (h' : Traces m Q' p s) :
    Traces m (fun r s' calls ↦ Q r s' calls ∧ Q' r s' calls) p s := by
  induction p generalizing s Q Q' with
  | pure a => exact ⟨h, h'⟩
  | throw e => exact ⟨h, h'⟩
  | call c k ih => exact fun x hx ↦ ih _ (h x hx) (h' x hx)

/-- A loop up to its first failure: an invariant over the elements done, and what a failure leaves. -/
theorem collectEach {body : α → Program σ ε β} {I : List β → S → List (σ.Call × X) → Prop}
    {F : List β → ε → S → List (σ.Call × X) → Prop}
    (step : ∀ x ∈ xs, ∀ done s calls, I done s calls →
      Traces m (fun r s' calls' ↦
        match r with
        | .ok b => I (done ++ [b]) s' (calls ++ calls')
        | .error e => F done e s' (calls ++ calls')) (body x) s) {done : List β}
    (start : I done s calls) :
    Traces m (fun r s' calls' ↦ ∃ done', r = .ok (done', none) ∧ I done' s' (calls ++ calls') ∨
      ∃ e, r = .ok (done', some e) ∧ F done' e s' (calls ++ calls'))
      (Program.collectEach body done xs) s := by
  induction xs generalizing done s calls with
  | nil =>
    have hstart : I done s (calls ++ []) := by rwa [append_nil]
    exact ⟨done, .inl ⟨rfl, hstart⟩⟩
  | cons x xs ih =>
    have hfirst := step x mem_cons_self done s calls start
    have hrest : ∀ y ∈ xs, _ := fun y hy ↦ step y (mem_cons_of_mem _ hy)
    apply (settle (Q := fun r s' calls' ↦ ∃ outcome, r = .ok outcome ∧ match outcome with
      | .ok b => I (done ++ [b]) s' (calls ++ calls')
      | .error e => F done e s' (calls ++ calls')) (hfirst.imp fun r s' calls' h ↦ ⟨r, rfl, h⟩)).bind
    · intro outcome s' calls' houtcome
      obtain ⟨_, ⟨⟩, houtcome⟩ := houtcome
      cases outcome with
      | ok b =>
        apply (ih hrest houtcome).imp
        intro r s'' calls'' hr
        rwa [append_assoc] at hr
      | error e =>
        have hend : F done e s' (calls ++ (calls' ++ [])) := by rwa [append_nil]
        exact ⟨done, .inr ⟨e, rfl, hend⟩⟩
    · intro e s' calls' h
      obtain ⟨_, h, -⟩ := h
      cases h

/-- The calls are forgotten. -/
theorem ends {Q : Except ε α → S → Prop} (h : Traces m (fun r s' _ ↦ Q r s') p s) :
    wp m (fun _ _ _ ↦ True) Q p s := by
  induction p generalizing s with
  | pure a => exact h
  | throw e => exact h
  | call c k ih => exact fun x hx ↦ ⟨trivial, ih _ (h x hx)⟩

end Traces

/-- Every call of the program satisfies `P`, whatever is answered. -/
def Asks (P : σ.Call → Prop) : Program σ ε α → Prop
  | .pure _ => True
  | .throw _ => True
  | .call c k => P c ∧ ∀ answer, Asks P (k answer)

namespace Asks

variable {P : σ.Call → Prop}

theorem pure {a : α} : Asks P (.pure a : Program σ ε α) := trivial

theorem ask {c : σ.Call} (h : P c) : Asks P (Program.ask c : Program σ ε (σ.Answer c)) := by
  refine ⟨h, fun answer ↦ ?_⟩
  cases answer <;> trivial

variable {p : Program σ ε α}

theorem bind (hp : Asks P p) (hf : ∀ a, Asks P (f a)) : Asks P (p >>= f) := by
  induction p with
  | pure a => exact hf a
  | throw e => trivial
  | call c k ih => exact ⟨hp.1, fun answer ↦ ih answer (hp.2 answer)⟩

theorem settle (h : Asks P p) : Asks P p.settle := by
  induction p with
  | pure a => trivial
  | throw e => trivial
  | call c k ih => exact ⟨h.1, fun answer ↦ ih answer (h.2 answer)⟩

theorem ofExcept : Asks P (Program.ofExcept r) := by
  cases r <;> trivial

/-- A check in front of a program, whose result the program may know of. -/
theorem ofExcept_bind (h : ∀ a, r = .ok a → Asks P (f a)) : Asks P (Program.ofExcept r >>= f) := by
  cases r with
  | ok a => exact h a rfl
  | error e => trivial

theorem throwIf [Decidable c] : Asks P (Program.throwIf c e) := by
  unfold Program.throwIf
  split <;> trivial

theorem onlyIf [Decidable c] {p : Program σ ε Unit} (h : Asks P p) :
    Asks P (Program.onlyIf c p) := by
  unfold Program.onlyIf
  split
  · exact h
  · trivial

theorem forSome (h : ∀ a, Asks P (body a)) : Asks P (Program.forSome o body) := by
  cases o with
  | none => trivial
  | some a => exact h a

theorem tryCatch (hp : Asks P p) (hhandler : ∀ e, Asks P (handler e)) :
    Asks P (p.tryCatch handler) := by
  apply hp.settle.bind
  intro r
  cases r with
  | ok a => trivial
  | error e => exact hhandler e

theorem finallyDo (hp : Asks P p) (hlast : Asks P last) : Asks P (p.finallyDo last) :=
  hp.settle.bind fun _ ↦ hlast.bind fun _ ↦ ofExcept

theorem mapEach {body : α → Program σ ε β} (h : ∀ x ∈ xs, Asks P (body x)) :
    Asks P (Program.mapEach body xs) := by
  induction xs with
  | nil => trivial
  | cons x xs ih =>
    apply (h x mem_cons_self).bind
    intro _
    exact (ih fun y hy ↦ h y (mem_cons_of_mem _ hy)).bind fun _ ↦ trivial

theorem foldEach {body : β → α → Program σ ε β} (h : ∀ b, ∀ x ∈ xs, Asks P (body b x)) (b : β) :
    Asks P (Program.foldEach body b xs) := by
  induction xs generalizing b with
  | nil => trivial
  | cons x xs ih =>
    apply (h b x mem_cons_self).bind
    intro b'
    exact ih (fun b y hy ↦ h b y (mem_cons_of_mem _ hy)) b'

theorem forEach (h : ∀ x ∈ xs, Asks P (body x)) : Asks P (Program.forEach body xs) := by
  induction xs with
  | nil => trivial
  | cons x xs ih =>
    apply (h x mem_cons_self).bind
    intro _
    exact ih fun y hy ↦ h y (mem_cons_of_mem _ hy)

theorem collectEach {body : α → Program σ ε β} (h : ∀ x ∈ xs, Asks P (body x)) (done : List β) :
    Asks P (Program.collectEach body done xs) := by
  induction xs generalizing done with
  | nil => trivial
  | cons x xs ih =>
    apply (h x mem_cons_self).settle.bind
    intro r
    cases r with
    | ok b => exact ih (fun y hy ↦ h y (mem_cons_of_mem _ hy)) _
    | error e => trivial

theorem any (p : Program σ ε α) : Asks (fun _ ↦ True) p := by
  induction p with
  | pure a => trivial
  | throw e => trivial
  | call c k ih => exact ⟨trivial, ih⟩

theorem imp {P' : σ.Call → Prop} (h : Asks P p) (hP : ∀ c, P c → P' c) : Asks P' p := by
  induction p with
  | pure a => trivial
  | throw e => trivial
  | call c k ih => exact ⟨hP c h.1, fun answer ↦ ih answer (h.2 answer)⟩

/-- A program of such calls makes only such calls. -/
theorem traces {m : Machine σ ε S X} (h : Asks P p) (s : S) :
    Traces m (fun _ _ calls ↦ ∀ event ∈ calls, P event.1) p s := by
  induction p generalizing s with
  | pure a => exact nofun
  | throw e => exact nofun
  | call c k ih =>
    intro x hx
    apply (ih _ (h.2 _) _).imp
    intro r s' calls hcalls
    exact forall_mem_cons.mpr ⟨h.1, hcalls⟩

/-- What such calls keep holds throughout. -/
theorem wp {m : Machine σ ε S X} {I : S → Prop} {s : S} (h : Asks P p)
    (hkeep : ∀ c x s, P c → m.permits c x s → I s → I (m.respond c x s).2) (hs : I s) :
    wp m (fun c x s ↦ I (m.respond c x s).2) (fun _ ↦ I) p s := by
  induction p generalizing s with
  | pure a => exact hs
  | throw e => exact hs
  | call c k ih =>
    intro x hx
    have hnext := hkeep c x s h.1 hx hs
    exact ⟨hnext, ih _ (h.2 _) hnext⟩

end Asks

end AsyncProgram
