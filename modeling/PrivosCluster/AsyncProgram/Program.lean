import Mathlib.Tactic.Common

/-!
# Programs of asynchronous calls

A program is a tree of awaited calls. Each call names a request of a signature and
continues with the answer, or with the error the awaited promise was rejected with.
Everything between two awaits is one atomic step, as in a single-threaded event loop.
-/

namespace AsyncProgram

/-- The calls a program may await, and what each of them resolves to. -/
structure Signature where
  Call : Type
  Answer : Call → Type

/-- A computation that returns, throws, or awaits one call and continues with its outcome. -/
inductive Program (σ : Signature) (ε α : Type) : Type where
  | pure (result : α)
  | throw (error : ε)
  | call (request : σ.Call) (next : Except ε (σ.Answer request) → Program σ ε α)

namespace Program

variable {σ : Signature} {ε α β γ : Type}

def bind : Program σ ε α → (α → Program σ ε β) → Program σ ε β
  | .pure a, f => f a
  | .throw e, _ => .throw e
  | .call c k, f => .call c fun answer ↦ bind (k answer) f

instance : Monad (Program σ ε) where
  pure := Program.pure
  bind := Program.bind

@[simp] theorem pure_eq (a : α) : (Pure.pure a : Program σ ε α) = .pure a := rfl

@[simp] theorem pure_bind (a : α) (f : α → Program σ ε β) : (Program.pure a >>= f) = f a := rfl

@[simp] theorem throw_bind (e : ε) (f : α → Program σ ε β) :
    (Program.throw e >>= f) = Program.throw e := rfl

@[simp] theorem call_bind (c : σ.Call) (k : Except ε (σ.Answer c) → Program σ ε α)
    (f : α → Program σ ε β) : (Program.call c k >>= f) = .call c fun answer ↦ k answer >>= f := rfl

theorem bind_assoc (p : Program σ ε α) (f : α → Program σ ε β) (g : β → Program σ ε γ) :
    (p >>= f >>= g) = p >>= fun a ↦ f a >>= g := by
  induction p with
  | pure a => rfl
  | throw e => rfl
  | call c k ih =>
    simp only [call_bind]
    congr 1
    funext answer
    exact ih answer

/-- Await one call. -/
def ask (c : σ.Call) : Program σ ε (σ.Answer c) :=
  .call c fun
    | .ok a => .pure a
    | .error e => .throw e

/-- Run a program to its end and hand over its outcome, as `try`/`catch` and `Promise.allSettled` do. -/
def settle : Program σ ε α → Program σ ε (Except ε α)
  | .pure a => .pure (.ok a)
  | .throw e => .pure (.error e)
  | .call c k => .call c fun answer ↦ settle (k answer)

/-- The program that ends with a given outcome. -/
def ofExcept : Except ε α → Program σ ε α
  | .ok a => .pure a
  | .error e => .throw e

def tryCatch (p : Program σ ε α) (handler : ε → Program σ ε α) : Program σ ε α := do
  match ← p.settle with
  | .ok a => .pure a
  | .error e => handler e

/-- `try`/`finally`: the last program runs on either outcome. -/
def finallyDo (p : Program σ ε α) (last : Program σ ε Unit) : Program σ ε α := do
  let outcome ← p.settle
  last
  ofExcept outcome

def throwIf (condition : Prop) [Decidable condition] (error : ε) : Program σ ε Unit :=
  if condition then .throw error else .pure ()

def onlyIf (condition : Prop) [Decidable condition] (p : Program σ ε Unit) : Program σ ε Unit :=
  if condition then p else .pure ()

def forSome (value : Option α) (body : α → Program σ ε Unit) : Program σ ε Unit :=
  value.elim (.pure ()) body

/-- `for (const x of xs)` with the loop state of the body. -/
def foldEach (body : β → α → Program σ ε β) : β → List α → Program σ ε β
  | b, [] => .pure b
  | b, x :: xs => do
    let b' ← body b x
    foldEach body b' xs

def forEach (body : α → Program σ ε Unit) (xs : List α) : Program σ ε Unit :=
  foldEach (fun _ x ↦ body x) () xs

def mapEach (body : α → Program σ ε β) : List α → Program σ ε (List β)
  | [] => .pure []
  | x :: xs => do
    let b ← body x
    let bs ← mapEach body xs
    .pure (b :: bs)

/-- The results of a loop up to its first failure, and the failure. -/
def collectEach (body : α → Program σ ε β) : List β → List α → Program σ ε (List β × Option ε)
  | done, [] => .pure (done, none)
  | done, x :: xs => do
    let outcome ← (body x).settle
    match outcome with
    | .ok b => collectEach body (done ++ [b]) xs
    | .error e => .pure (done, some e)

/-- Tasks started together and served in some order, each to its own outcome. -/
def settleInOrder (tasks : List (Program σ ε α)) :
    List (Fin tasks.length) → Program σ ε (List (Fin tasks.length × Except ε α)) :=
  mapEach fun i ↦ do
    let outcome ← (tasks.get i).settle
    .pure (i, outcome)

end Program

/-- The result of the task with a given index. -/
def outcomeOf {ε α : Type} {n : Nat} (settled : List (Fin n × Except ε α)) (i : Fin n) : Option α :=
  (settled.find? fun r ↦ r.1 = i).bind fun r ↦ r.2.toOption

end AsyncProgram
