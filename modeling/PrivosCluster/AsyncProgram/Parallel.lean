import PrivosCluster.AsyncProgram.Delegation
import PrivosCluster.AsyncProgram.Tracing

/-!
# Tasks in parallel

Tasks that a program starts together and awaits together. Whose turn it is at an await is asked of
the environment, so every interleaving of the calls of the tasks is a run of the program.
-/

namespace AsyncProgram

variable {σ : Signature} {ε S X α β : Type}

/-- The call that asks whose turn it is, and how its answer is read. -/
structure Scheduler (σ : Signature) (ε : Type) where
  turn : σ.Call
  isLeft : Except ε (σ.Answer turn) → Bool

namespace Program

/-- A task at the call `c` beside another task; `rest` is how they go on after the call. -/
def parCall (s : Scheduler σ ε) (c : σ.Call) (k : Except ε (σ.Answer c) → Program σ ε α)
    (rest : Except ε (σ.Answer c) → Program σ ε β → Program σ ε (Except ε α × Except ε β)) :
    Program σ ε β → Program σ ε (Except ε α × Except ε β)
  | .pure b => do
    let a ← (Program.call c k).settle
    .pure (a, .ok b)
  | .throw e => do
    let a ← (Program.call c k).settle
    .pure (a, .error e)
  | .call d l => .call s.turn fun answer ↦
    if s.isLeft answer then .call c fun answer ↦ rest answer (.call d l)
    else .call d fun answer ↦ parCall s c k rest (l answer)

/-- Two tasks in parallel, each to its own outcome. -/
def par (s : Scheduler σ ε) :
    Program σ ε α → Program σ ε β → Program σ ε (Except ε α × Except ε β)
  | .pure a, q => do
    let b ← q.settle
    .pure (.ok a, b)
  | .throw e, q => do
    let b ← q.settle
    .pure (.error e, b)
  | .call c k, q => parCall s c k (fun answer ↦ par s (k answer)) q

/-- `Promise.allSettled`: any number of tasks in parallel. The rest of the batch does not throw. -/
def allSettled (s : Scheduler σ ε) : List (Program σ ε α) → Program σ ε (List (Except ε α))
  | [] => .pure []
  | task :: tasks => do
    let (first, others) ← par s task (allSettled s tasks)
    .pure (first :: others.toOption.getD [])

end Program

/-! ## The calls of parallel tasks -/

variable {q : Program σ ε β} {p : Program σ ε α} {m : Machine σ ε S X}

namespace Asks

variable {P : σ.Call → Prop} {s : Scheduler σ ε}

theorem parCall (hturn : P s.turn) {c : σ.Call} {k : Except ε (σ.Answer c) → Program σ ε α}
    {rest : Except ε (σ.Answer c) → Program σ ε β → Program σ ε (Except ε α × Except ε β)}
    (hp : Asks P (.call c k)) (hrest : ∀ answer q, Asks P q → Asks P (rest answer q))
    (hq : Asks P q) : Asks P (Program.parCall s c k rest q) := by
  induction q with
  | pure b => exact hp.settle.bind fun _ ↦ trivial
  | throw e => exact hp.settle.bind fun _ ↦ trivial
  | call d l ih =>
    refine ⟨hturn, fun answer ↦ ?_⟩
    beta_reduce
    split
    · exact ⟨hp.1, fun answer ↦ hrest answer _ hq⟩
    · exact ⟨hq.1, fun answer ↦ ih answer (hq.2 answer)⟩

theorem par (hturn : P s.turn) (hp : Asks P p) (hq : Asks P q) : Asks P (Program.par s p q) := by
  induction p generalizing q with
  | pure a => exact hq.settle.bind fun _ ↦ trivial
  | throw e => exact hq.settle.bind fun _ ↦ trivial
  | call c k ih => exact parCall hturn hp (fun answer q hq ↦ ih answer (hp.2 answer) hq) hq

theorem allSettled (hturn : P s.turn) {tasks : List (Program σ ε α)}
    (h : ∀ task ∈ tasks, Asks P task) : Asks P (Program.allSettled s tasks) := by
  induction tasks with
  | nil => trivial
  | cons task tasks ih =>
    have htask := h task List.mem_cons_self
    have htasks := ih fun task' htask' ↦ h task' (List.mem_cons_of_mem _ htask')
    exact (par hturn htask htasks).bind fun _ ↦ trivial

end Asks

/-- A delegated program asks what its handlers ask. -/
theorem Asks.delegate {τ : Signature} {P : τ.Call → Prop}
    {handler : (c : σ.Call) → Program τ ε (σ.Answer c)} (h : ∀ c, Asks P (handler c))
    (p : Program σ ε α) : Asks P (p.delegate handler) := by
  induction p with
  | pure a => trivial
  | throw e => trivial
  | call c k ih => exact (h c).settle.bind ih

/-- A program on its own makes only calls that it may ask. -/
theorem Asks.advances {P : σ.Call → Prop} {rest : Program σ ε α} {s s' : S}
    {calls : List (σ.Call × X)} (h : Asks P p) (hp : Advances m p s calls rest s') :
    ∀ call ∈ calls, P call.1 := by
  induction hp with
  | refl => exact fun _ hcall ↦ absurd hcall List.not_mem_nil
  | step x _ _ ih => exact List.forall_mem_cons.mpr ⟨h.1, ih (h.2 _)⟩

/-- A program of calls that all meet a discipline meets it. -/
theorem Asks.meets {D : Discipline σ S} {P : σ.Call → Prop} (h : Asks P p)
    (hcalls : ∀ c x s, P c → D.assumes c s → m.permits c x s → D.ensures s (m.respond c x s).2) :
    Meets m D (fun _ ↦ True) p := by
  induction p with
  | pure a => trivial
  | throw e => trivial
  | call c k ih => exact fun x s hs hx ↦ ⟨hcalls c x s h.1 hs hx, ih _ (h.2 _)⟩

/-- A program complies with terms under which every call is in order. -/
theorem Complies.of_allows {t : Terms σ ε} (h : ∀ c, t.allows c) (p : Program σ ε α) :
    Complies t (fun _ ↦ True) p := by
  induction p with
  | pure a => trivial
  | throw e => trivial
  | call c k ih => exact fun x inOrder hs _ ↦ ⟨⟨hs, h c⟩, ih _⟩

end AsyncProgram
