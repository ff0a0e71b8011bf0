import PrivosCluster.AsyncProgram.Execution

/-!
# Programs among others

Between two calls of a program others may change the state. A discipline says what may be
assumed of the state a call meets and what the call must ensure. A program meets a discipline
when all its calls do, with nothing carried from one call to the next but the answers, so a
program that meets a discipline may be interleaved with others that keep its assumption.
-/

namespace AsyncProgram

open List

variable {σ : Signature} {ε S X α β : Type}

structure Discipline (σ : Signature) (S : Type) where
  assumes : σ.Call → S → Prop
  ensures : S → S → Prop

/-- Every call may assume `I` and must keep it. -/
def Discipline.keep (I : S → Prop) : Discipline σ S := ⟨fun _ ↦ I, fun _ s' ↦ I s'⟩

/-- Calls that touch the guarded data may assume `R`, and no call may end `R`. -/
def Discipline.inside (touches : σ.Call → Prop) (R : S → Prop) : Discipline σ S :=
  ⟨fun c s ↦ touches c → R s, fun s s' ↦ R s → R s'⟩

/-- Every call may assume `A` and `I` and must keep `I`. -/
def Discipline.under (A I : S → Prop) : Discipline σ S := ⟨fun _ s ↦ A s ∧ I s, fun _ s' ↦ I s'⟩

/-- No call may step outside the frame `R`. -/
def Discipline.frame (R : S → S → Prop) : Discipline σ S := ⟨fun _ _ ↦ True, R⟩

/-- All calls of the program meet the discipline, and what it returns satisfies `Q`. -/
def Meets (m : Machine σ ε S X) (D : Discipline σ S) (Q : α → Prop) : Program σ ε α → Prop
  | .pure a => Q a
  | .throw _ => True
  | .call c k => ∀ x s, D.assumes c s → m.permits c x s →
      D.ensures s (m.respond c x s).2 ∧ Meets m D Q (k (m.respond c x s).1)

/-- A program that keeps an invariant wherever it is interleaved or stopped. -/
abbrev Keeps (m : Machine σ ε S X) (I : S → Prop) (Q : α → Prop) (p : Program σ ε α) : Prop :=
  Meets m (.keep I) Q p

variable {f : α → Program σ ε β} {done : List β} {s : S}

namespace Meets

variable {m : Machine σ ε S X} {D : Discipline σ S} {Q : α → Prop}

theorem throw {e : ε} : Meets m D Q (.throw e) := trivial

variable {p : Program σ ε α}

theorem imp {Q' : α → Prop} (h : Meets m D Q p) (hQ : ∀ a, Q a → Q' a) : Meets m D Q' p := by
  induction p with
  | pure a => exact hQ a h
  | throw e => trivial
  | call c k ih => exact fun x s hs hx ↦ ⟨(h x s hs hx).1, ih _ (h x s hs hx).2⟩

theorem bind {R : α → Prop} {Q : β → Prop} (hp : Meets m D R p)
    (hf : ∀ a, R a → Meets m D Q (f a)) : Meets m D Q (p >>= f) := by
  induction p with
  | pure a => exact hf a hp
  | throw e => trivial
  | call c k ih => exact fun x s hs hx ↦ ⟨(hp x s hs hx).1, ih _ (hp x s hs hx).2⟩

/-- Sequencing, when nothing has to be known of the first result. -/
theorem seq {Q : β → Prop} (hp : Meets m D (fun _ ↦ True) p) (hf : ∀ a, Meets m D Q (f a)) :
    Meets m D Q (p >>= f) :=
  hp.bind fun a _ ↦ hf a

theorem ask {c : σ.Call} {Q : σ.Answer c → Prop}
    (h : ∀ x s, D.assumes c s → m.permits c x s →
      D.ensures s (m.respond c x s).2 ∧ ∀ a, (m.respond c x s).1 = .ok a → Q a) :
    Meets m D Q (Program.ask c) := by
  intro x s hs hx
  obtain ⟨hD, hQ⟩ := h x s hs hx
  refine ⟨hD, ?_⟩
  cases hr : (m.respond c x s).1 with
  | ok a => exact hQ a hr
  | error e => trivial

theorem settle (h : Meets m D Q p) : Meets m D (fun r ↦ ∀ a, r = .ok a → Q a) p.settle := by
  induction p with
  | pure a =>
    rintro _ ⟨⟩
    exact h
  | throw e => rintro _ ⟨⟩
  | call c k ih => exact fun x s hs hx ↦ ⟨(h x s hs hx).1, ih _ (h x s hs hx).2⟩

theorem ofExcept {r : Except ε α} (h : ∀ a, r = .ok a → Q a) :
    Meets m D Q (Program.ofExcept (σ := σ) r) := by
  cases r with
  | ok a => exact h a rfl
  | error e => trivial

theorem tryCatch {handler : ε → Program σ ε α} (hp : Meets m D Q p)
    (hhandler : ∀ e, Meets m D Q (handler e)) : Meets m D Q (p.tryCatch handler) := by
  refine hp.settle.bind fun r hr ↦ ?_
  cases r with
  | ok a => exact hr a rfl
  | error e => exact hhandler e

theorem finallyDo {last : Program σ ε Unit} (hp : Meets m D Q p)
    (hlast : Meets m D (fun _ ↦ True) last) : Meets m D Q (p.finallyDo last) :=
  hp.settle.bind fun _ hr ↦ hlast.bind fun _ _ ↦ ofExcept hr

theorem throwIf {c : Prop} [Decidable c] {e : ε} :
    Meets m D (fun _ ↦ ¬ c) (Program.throwIf (σ := σ) c e) := by
  unfold Program.throwIf
  split
  · trivial
  next h => exact h

theorem onlyIf {c : Prop} [Decidable c] {p : Program σ ε Unit}
    (h : c → Meets m D (fun _ ↦ True) p) : Meets m D (fun _ ↦ True) (Program.onlyIf c p) := by
  unfold Program.onlyIf
  split
  next hc => exact h hc
  · trivial

theorem forSome {o : Option α} {body : α → Program σ ε Unit}
    (h : ∀ a, o = some a → Meets m D (fun _ ↦ True) (body a)) :
    Meets m D (fun _ ↦ True) (Program.forSome o body) := by
  cases o with
  | none => trivial
  | some a => exact h a rfl

variable {xs : List α}

theorem foldEach {body : β → α → Program σ ε β} {R : β → Prop}
    (h : ∀ b, ∀ x ∈ xs, R b → Meets m D R (body b x)) {b : β} (hb : R b) :
    Meets m D R (Program.foldEach body b xs) := by
  induction xs generalizing b with
  | nil => exact hb
  | cons x xs ih =>
    exact (h b x (by simp) hb).bind fun b' hb' ↦
      ih (fun b x hx ↦ h b x (mem_cons_of_mem _ hx)) hb'

theorem forEach {body : α → Program σ ε Unit} (h : ∀ x ∈ xs, Meets m D (fun _ ↦ True) (body x)) :
    Meets m D (fun _ ↦ True) (Program.forEach body xs) :=
  foldEach (fun _ x hx _ ↦ h x hx) trivial

variable {body : α → Program σ ε β}

theorem mapEach {Q : β → Prop} (h : ∀ x ∈ xs, Meets m D Q (body x)) :
    Meets m D (fun bs ↦ ∀ b ∈ bs, Q b) (Program.mapEach body xs) := by
  induction xs with
  | nil => exact nofun
  | cons x xs ih =>
    refine (h x (by simp)).bind fun b hb ↦ ?_
    refine (ih fun x hx ↦ h x (mem_cons_of_mem _ hx)).bind fun bs hbs ↦ ?_
    exact forall_mem_cons.mpr ⟨hb, hbs⟩

/-- A loop has one result for each element. -/
theorem mapEach_length (h : ∀ x ∈ xs, Meets m D (fun _ ↦ True) (body x)) :
    Meets m D (fun bs ↦ bs.length = xs.length) (Program.mapEach body xs) := by
  induction xs with
  | nil => exact (rfl : ([] : List β).length = 0)
  | cons x xs ih =>
    apply (h x (by simp)).bind
    intro b _
    apply (ih fun x hx ↦ h x (mem_cons_of_mem _ hx)).bind
    intro bs hbs
    exact congrArg (· + 1) hbs

theorem collectEach {Q : β → Prop} (h : ∀ x ∈ xs, Meets m D Q (body x)) (hdone : ∀ b ∈ done, Q b) :
    Meets m D (fun r ↦ ∀ b ∈ r.1, Q b) (Program.collectEach body done xs) := by
  induction xs generalizing done with
  | nil => exact hdone
  | cons x xs ih =>
    refine (h x (by simp)).settle.bind fun r hr ↦ ?_
    cases r with
    | error e => exact hdone
    | ok b =>
      refine ih (fun x hx ↦ h x (mem_cons_of_mem _ hx)) fun b' hb' ↦ ?_
      obtain hb' | hb' := mem_append.mp hb'
      · exact hdone b' hb'
      · rw [mem_singleton.mp hb']
        exact hr b rfl

/-- A loop that stops at its first failure has at most one result for each element. -/
theorem collectEach_length (h : ∀ x ∈ xs, Meets m D (fun _ ↦ True) (body x)) :
    Meets m D (fun r ↦ r.1.length ≤ done.length + xs.length)
      (Program.collectEach body done xs) := by
  induction xs generalizing done with
  | nil => exact Nat.le_add_right _ _
  | cons x xs ih =>
    apply (h x (by simp)).settle.bind
    intro r _
    cases r with
    | error e => exact Nat.le_add_right _ _
    | ok b =>
      apply (ih fun x hx ↦ h x (mem_cons_of_mem _ hx)).imp
      intro r hr
      rw [length_append, length_singleton] at hr
      rw [length_cons]
      omega

theorem settleInOrder {tasks : List (Program σ ε α)} {order : List (Fin tasks.length)}
    (h : ∀ p ∈ tasks, Meets m D Q p) :
    Meets m D (fun settled ↦ ∀ r ∈ settled, ∀ a, r.2 = .ok a → Q a)
      (Program.settleInOrder tasks order) :=
  mapEach fun _ _ ↦ (h _ (List.get_mem _ _)).settle.bind fun _ hr ↦ hr

end Meets

/-- What each call leaves alone, a whole execution leaves alone. -/
theorem Meets.frame {m : Machine σ ε S X} {R : S → S → Prop} {Q : α → Prop}
    (hrefl : ∀ s, R s s) (htrans : ∀ s s' s'', R s s' → R s' s'' → R s s'') {p : Program σ ε α}
    (h : Meets m (.frame R) Q p) (s : S) :
    wp m (fun _ _ _ ↦ True) (fun r s' ↦ R s s' ∧ ∀ a, r = .ok a → Q a) p s := by
  induction p generalizing s with
  | pure a =>
    refine ⟨hrefl s, ?_⟩
    rintro _ ⟨⟩
    exact h
  | throw e => exact ⟨hrefl s, nofun⟩
  | call c k ih =>
    intro x hx
    obtain ⟨hR, hk⟩ := h x s trivial hx
    refine ⟨trivial, (ih _ hk _).imp fun r s' hr ↦ ?_⟩
    exact ⟨htrans _ _ _ hR hr.1, hr.2⟩

section Keeps

variable {m : Machine σ ε S X} {I : S → Prop} {Q : α → Prop} {p : Program σ ε α}

theorem Keeps.wp (h : Keeps m I Q p) (hs : I s) :
    wp m (fun c x s ↦ I (m.respond c x s).2) (fun r s' ↦ I s' ∧ ∀ a, r = .ok a → Q a) p s := by
  induction p generalizing s with
  | pure a =>
    refine ⟨hs, ?_⟩
    rintro _ ⟨⟩
    exact h
  | throw e => exact ⟨hs, nofun⟩
  | call c k ih =>
    intro x hx
    obtain ⟨hI, hk⟩ := h x s hs hx
    exact ⟨hI, ih _ hk hI⟩

/-- The invariant holds at the end of every completed run. -/
theorem Keeps.ends (h : Keeps m I Q p) (hs : I s) :
    AsyncProgram.wp m (fun _ _ _ ↦ True) (fun _ s' ↦ I s') p s :=
  wp_mono (fun _ _ _ _ ↦ trivial) (fun _ _ h ↦ h.1) (h.wp hs)

/-- The invariant holds wherever an execution ends or is stopped. -/
theorem Keeps.executes (h : Keeps m I Q p) {s' : S} {outcome : Outcome ε α}
    (run : Executes m p s outcome s') (hs : I s) : I s' :=
  run.invariant (h.wp hs) hs

end Keeps

end AsyncProgram
