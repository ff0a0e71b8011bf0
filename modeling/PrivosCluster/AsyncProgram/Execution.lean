import PrivosCluster.AsyncProgram.Program

/-!
# Executions and weakest preconditions

A machine answers calls. Its law says which choices the environment may make at a call,
and its response says what a choice does to the state. A program is executed call by call,
and the process may stop before any of them.

The weakest precondition is a fold of the program, so it is compositional and complete. It
carries one obligation for every call made on the way, besides the condition on the outcome.
-/

namespace AsyncProgram

variable {σ : Signature} {ε S X α β : Type}

/-- An environment for the calls of a signature, over states `S` and choices `X`. -/
structure Machine (σ : Signature) (ε S X : Type) where
  permits : σ.Call → X → S → Prop
  respond : (c : σ.Call) → X → S → Except ε (σ.Answer c) × S

inductive Outcome (ε α : Type) : Type where
  | returned (result : α)
  | threw (error : ε)
  | stopped

/-- The outcome of an execution that reached the end of the program. -/
def Outcome.ofExcept : Except ε α → Outcome ε α
  | .ok a => .returned a
  | .error e => .threw e

inductive Executes (m : Machine σ ε S X) : Program σ ε α → S → Outcome ε α → S → Prop where
  | returned (a : α) (s : S) : Executes m (.pure a) s (.returned a) s
  | threw (e : ε) (s : S) : Executes m (.throw e) s (.threw e) s
  | stopped (p : Program σ ε α) (s : S) : Executes m p s .stopped s
  | call {c : σ.Call} {k : Except ε (σ.Answer c) → Program σ ε α} {s s' : S} {x : X}
      {outcome : Outcome ε α} (permitted : m.permits c x s)
      (rest : Executes m (k (m.respond c x s).1) (m.respond c x s).2 outcome s') :
      Executes m (.call c k) s outcome s'

/-- The end of the execution in which the environment follows a policy. -/
def Machine.run (m : Machine σ ε S X) (policy : σ.Call → S → X) :
    Program σ ε α → S → Except ε α × S
  | .pure a, s => (.ok a, s)
  | .throw e, s => (.error e, s)
  | .call c k, s =>
    run m policy (k (m.respond c (policy c s) s).1) (m.respond c (policy c s) s).2

variable {I : S → Prop} {a : α} {e : ε} {error E : ε → S → Prop} {ok : α → S → Prop}
  {r : Except ε α} {c : Prop} {body : α → Program σ ε Unit} {Q' : Except ε α → S → Prop}
  {xs : List α}

/-- The policy needs to be lawful only where its own choices lead. -/
theorem Machine.executes_run_under {m : Machine σ ε S X} {policy : σ.Call → S → X}
    (lawful : ∀ c s, I s → m.permits c (policy c s) s)
    (keeps : ∀ c s, I s → I (m.respond c (policy c s) s).2) {p : Program σ ε α} {s : S} (hs : I s) :
    Executes m p s (.ofExcept (m.run policy p s).1) (m.run policy p s).2 := by
  induction p generalizing s with
  | pure a => exact .returned a s
  | throw e => exact .threw e s
  | call c k ih => exact .call (lawful c s hs) (ih _ (keeps c s hs))

theorem Machine.executes_run (m : Machine σ ε S X) (policy : σ.Call → S → X)
    (lawful : ∀ c s, m.permits c (policy c s) s) (p : Program σ ε α) (s : S) :
    Executes m p s (.ofExcept (m.run policy p s).1) (m.run policy p s).2 :=
  executes_run_under (I := fun _ ↦ True) (fun c s _ ↦ lawful c s) (fun _ _ _ ↦ trivial) trivial

/-- The weakest precondition: every permitted call meets `G`, every completed run ends in `Q`. -/
def wp (m : Machine σ ε S X) (G : σ.Call → X → S → Prop) (Q : Except ε α → S → Prop) :
    Program σ ε α → S → Prop
  | .pure a, s => Q (.ok a) s
  | .throw e, s => Q (.error e) s
  | .call c k, s => ∀ x, m.permits c x s →
      G c x s ∧ wp m G Q (k (m.respond c x s).1) (m.respond c x s).2

/-- What remains to be shown after the first half of a sequence. -/
def andThen (m : Machine σ ε S X) (G : σ.Call → X → S → Prop) (Q : Except ε β → S → Prop)
    (f : α → Program σ ε β) : Except ε α → S → Prop
  | .ok a, s => wp m G Q (f a) s
  | .error e, s => Q (.error e) s

/-- A postcondition given separately for a returned result and for a thrown error. -/
def onOutcome (ok : α → S → Prop) (error : ε → S → Prop) : Except ε α → S → Prop
  | .ok a => ok a
  | .error e => error e

section Rules

variable {m : Machine σ ε S X} {G G' : σ.Call → X → S → Prop}

variable {f : α → Program σ ε β} {s : S}

@[simp] theorem andThen_ok {Q : Except ε β → S → Prop} :
    andThen m G Q f (.ok a) s = wp m G Q (f a) s := rfl

@[simp] theorem andThen_error {Q : Except ε β → S → Prop} :
    andThen m G Q f (.error e) s = Q (.error e) s := rfl

@[simp] theorem onOutcome_ok :
    onOutcome ok error (.ok a) = ok a := rfl

@[simp] theorem onOutcome_error :
    onOutcome ok error (.error e) = error e := rfl

variable {Q : Except ε α → S → Prop}

@[simp] theorem wp_pure : wp m G Q (.pure a) s = Q (.ok a) s := rfl

@[simp] theorem wp_throw {Q : Except ε α → S → Prop} {s : S} :
    wp m G Q (.throw e) s = Q (.error e) s := rfl

theorem wp_ask {c : σ.Call} {Q : Except ε (σ.Answer c) → S → Prop} :
    wp m G Q (Program.ask c) s ↔ ∀ x, m.permits c x s →
      G c x s ∧ Q (m.respond c x s).1 (m.respond c x s).2 := by
  refine forall₂_congr fun x _ ↦ and_congr_right fun _ ↦ ?_
  cases (m.respond c x s).1 <;> rfl

variable {p : Program σ ε α}

theorem wp_bind {Q : Except ε β → S → Prop} :
    wp m G Q (p >>= f) s ↔ wp m G (andThen m G Q f) p s := by
  induction p generalizing s with
  | pure a => rfl
  | throw e => rfl
  | call c k ih =>
    exact forall₂_congr fun x _ ↦ and_congr_right fun _ ↦ ih _

theorem wp_settle {Q : Except ε (Except ε α) → S → Prop} :
    wp m G Q p.settle s ↔ wp m G (fun r s' ↦ Q (.ok r) s') p s := by
  induction p generalizing s with
  | pure a => rfl
  | throw e => rfl
  | call c k ih =>
    exact forall₂_congr fun x _ ↦ and_congr_right fun _ ↦ ih _

@[simp] theorem wp_ofExcept : wp m G Q (Program.ofExcept r) s = Q r s := by
  cases r <;> rfl

@[simp] theorem wp_ite [Decidable c] {q : Program σ ε α} :
    wp m G Q (if c then p else q) s ↔ if c then wp m G Q p s else wp m G Q q s := by
  split <;> rfl

@[simp] theorem wp_throwIf {Q : Except ε Unit → S → Prop} [Decidable c] :
    wp m G Q (Program.throwIf c e) s ↔ if c then Q (.error e) s else Q (.ok ()) s := by
  unfold Program.throwIf
  split <;> rfl

@[simp] theorem wp_onlyIf {Q : Except ε Unit → S → Prop} [Decidable c] {p : Program σ ε Unit} :
    wp m G Q (Program.onlyIf c p) s ↔ if c then wp m G Q p s else Q (.ok ()) s := by
  unfold Program.onlyIf
  split <;> rfl

@[simp] theorem wp_forSome {Q : Except ε Unit → S → Prop} {o : Option α} {s : S} :
    wp m G Q (Program.forSome o body) s ↔ o.elim (Q (.ok ()) s) fun a ↦ wp m G Q (body a) s := by
  cases o <;> rfl

theorem wp_mono (hG : ∀ c x s, G c x s → G' c x s) (hQ : ∀ r s, Q r s → Q' r s) (h : wp m G Q p s) :
    wp m G' Q' p s := by
  induction p generalizing s with
  | pure a => exact hQ _ _ h
  | throw e => exact hQ _ _ h
  | call c k ih => exact fun x hx ↦ ⟨hG _ _ _ (h x hx).1, ih _ (h x hx).2⟩

theorem wp.imp (h : wp m G Q p s) (hQ : ∀ r s, Q r s → Q' r s) : wp m G Q' p s :=
  wp_mono (fun _ _ _ ↦ id) hQ h

/-- Sequencing: the first half establishes what the second half and the error exit need. -/
theorem wp.bind {Q : Except ε β → S → Prop} {R : Except ε α → S → Prop} (h : wp m G R p s)
    (hok : ∀ a s, R (.ok a) s → wp m G Q (f a) s)
    (herror : ∀ e s, R (.error e) s → Q (.error e) s) : wp m G Q (p >>= f) s := by
  rw [wp_bind]
  refine h.imp fun r s hr ↦ ?_
  cases r with
  | ok a => exact hok a s hr
  | error e => exact herror e s hr

theorem wp_tryCatch {handler : ε → Program σ ε α} :
    wp m G Q (p.tryCatch handler) s ↔
      wp m G (onOutcome (fun a ↦ Q (.ok a)) fun e ↦ wp m G Q (handler e)) p s := by
  rw [Program.tryCatch, wp_bind, wp_settle]
  refine ⟨fun h ↦ h.imp ?_, fun h ↦ h.imp ?_⟩ <;> rintro (e | a) s <;> exact id

theorem wp_finallyDo {last : Program σ ε Unit} :
    wp m G Q (p.finallyDo last) s ↔
      wp m G (fun r ↦ wp m G (onOutcome (fun _ ↦ Q r) fun e ↦ Q (.error e)) last) p s := by
  rw [Program.finallyDo, wp_bind, wp_settle]
  simp only [andThen_ok, wp_bind]
  refine ⟨fun h ↦ h.imp fun r s h ↦ h.imp ?_, fun h ↦ h.imp fun r s h ↦ h.imp ?_⟩ <;>
    rintro (e | a) s h <;> simpa using h

/-- The loop rule: an invariant over the elements already visited. -/
theorem wp_foldEach {body : β → α → Program σ ε β} {I : List α → β → S → Prop}
    (step : ∀ visited x rest b s, xs = visited ++ x :: rest → I visited b s →
      wp m G (onOutcome (I (visited ++ [x])) E) (body b x) s) {b : β} (start : I [] b s) :
    wp m G (onOutcome (I xs) E) (Program.foldEach body b xs) s := by
  suffices h : ∀ rest visited b s, xs = visited ++ rest → I visited b s →
      wp m G (onOutcome (I xs) E) (Program.foldEach body b rest) s from h xs [] b s rfl start
  intro rest
  induction rest with
  | nil =>
    intro visited b s hxs h
    simpa [Program.foldEach, hxs] using h
  | cons x rest ih =>
    intro visited b s hxs h
    refine (step visited x rest b s hxs h).bind (fun b' s' hb' ↦ ?_) fun e s' he ↦ he
    exact ih (visited ++ [x]) b' s' (by simp [hxs]) hb'

theorem wp_forEach {I : List α → S → Prop}
    (step : ∀ visited x rest s, xs = visited ++ x :: rest → I visited s →
      wp m G (onOutcome (fun _ ↦ I (visited ++ [x])) E) (body x) s) (start : I [] s) :
    wp m G (onOutcome (fun _ ↦ I xs) E) (Program.forEach body xs) s :=
  wp_foldEach (I := fun visited _ s ↦ I visited s)
    (fun visited x rest _ s hxs h ↦ step visited x rest s hxs h) start

theorem wp_mapEach {body : α → Program σ ε β} {I : List α → List β → S → Prop}
    (step : ∀ visited x rest bs s, xs = visited ++ x :: rest → I visited bs s →
      wp m G (onOutcome (fun b ↦ I (visited ++ [x]) (bs ++ [b])) E) (body x) s)
    (start : I [] [] s) : wp m G (onOutcome (I xs) E) (Program.mapEach body xs) s := by
  suffices h : ∀ rest visited bs s, xs = visited ++ rest → I visited bs s →
      wp m G (onOutcome (fun bs' ↦ I xs (bs ++ bs')) E) (Program.mapEach body rest) s from
    h xs [] [] s rfl start
  intro rest
  induction rest with
  | nil =>
    intro visited bs s hxs h
    simpa [Program.mapEach, hxs] using h
  | cons x rest ih =>
    intro visited bs s hxs h
    refine (step visited x rest bs s hxs h).bind (fun b s' hb ↦ ?_) fun e s' he ↦ he
    refine (ih (visited ++ [x]) (bs ++ [b]) s' (by simp [hxs]) hb).bind
      (fun bs' s'' h ↦ ?_) fun e s'' he ↦ he
    simpa using h

theorem wp_settleInOrder {tasks : List (Program σ ε α)} {order : List (Fin tasks.length)}
    {J : List (Fin tasks.length × Except ε α) → S → Prop}
    (step : ∀ settled i s, i ∈ order → J settled s →
      wp m G (fun r s' ↦ J (settled ++ [(i, r)]) s') (tasks.get i) s) (start : J [] s) :
    wp m G (onOutcome (fun settled s' ↦ settled.map Prod.fst = order ∧ J settled s')
      fun _ _ ↦ False) (Program.settleInOrder tasks order) s := by
  refine wp_mapEach (I := fun visited settled s ↦ settled.map Prod.fst = visited ∧ J settled s)
    (fun visited i rest settled s horder h ↦ ?_) ⟨rfl, start⟩
  rw [wp_bind, wp_settle]
  have hi : i ∈ order := by simp [horder]
  refine (step settled i s hi h.2).imp fun r s' hr ↦ ?_
  exact ⟨by simp [h.1], hr⟩

end Rules

section Soundness

variable {m : Machine σ ε S X} {G : σ.Call → X → S → Prop} {Q : Except ε α → S → Prop}
  {p : Program σ ε α} {s s' : S}

/-- A completed execution ends in the postcondition. -/
theorem Executes.post (h : Executes m p s (.ofExcept r) s') (hp : wp m G Q p s) : Q r s' := by
  generalize ho : Outcome.ofExcept r = outcome at h
  induction h with
  | returned a s => cases r <;> cases ho; exact hp
  | threw e s => cases r <;> cases ho; exact hp
  | stopped p s => cases r <;> cases ho
  | call hx _ ih => exact ih (hp _ hx).2 ho

theorem Executes.post_returned (h : Executes m p s (.returned a) s') (hp : wp m G Q p s) :
    Q (.ok a) s' :=
  Executes.post (r := .ok a) h hp

theorem Executes.post_threw (h : Executes m p s (.threw e) s') (hp : wp m G Q p s) :
    Q (.error e) s' :=
  Executes.post (r := .error e) h hp

/-- What every call keeps holds wherever the execution ends or is stopped. -/
theorem Executes.invariant {outcome : Outcome ε α} (h : Executes m p s outcome s')
    (hp : wp m (fun c x s ↦ I (m.respond c x s).2) Q p s) (hs : I s) : I s' := by
  induction h with
  | returned | threw | stopped => exact hs
  | call hx _ ih => exact ih (hp _ hx).2 (hp _ hx).1

/-- The weakest precondition is no stronger than what every completed execution gives. -/
theorem wp_of_executes (h : ∀ r s', Executes m p s (.ofExcept r) s' → Q r s') :
    wp m (fun _ _ _ ↦ True) Q p s := by
  induction p generalizing s with
  | pure a => exact h (.ok a) s (.returned a s)
  | throw e => exact h (.error e) s (.threw e s)
  | call c k ih => exact fun x hx ↦ ⟨trivial, ih _ fun r s' hr ↦ h r s' (.call hx hr)⟩

end Soundness

/-- The same machine with a record of the calls made and the choices they met. -/
def Machine.traced (m : Machine σ ε S X) : Machine σ ε (S × List (σ.Call × X)) X where
  permits c x s := m.permits c x s.1
  respond c x s := ((m.respond c x s.1).1, ((m.respond c x s.1).2, s.2 ++ [(c, x)]))

end AsyncProgram
