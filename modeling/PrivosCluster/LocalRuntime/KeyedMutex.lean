import PrivosCluster.AsyncProgram.PromiseChain

/-!
# The mutex of the ledger

`KeyedMutex.withLock` waits for what `chains` holds under its key and leaves a chain of its own. At
its end it compares what is in `chains` with the promise that `previous.then` makes there and then,
which no map holds.
-/

namespace PrivosCluster.LocalRuntime.KeyedMutex

open PromiseChain Transitions List

variable {ε α : Type} {s s' : State String (Except ε α)}
  {events : List (Event String (Except ε α))}

/-- A call of `withLock`, the call of its function, and the end of the function with the `finally`
block. -/
def step : State String (Except ε α) → Event String (Except ε α) →
    Option (State String (Except ε α)) :=
  PromiseChain.step .again

/-- A chain stays. -/
theorem kept_chain {event : Event String (Except ε α)} (hstep : step s event = some s')
    (hinv : Inv s) (h : ∀ c ∈ s.calls, s.tails c.key ≠ none) :
    ∀ c ∈ s'.calls, s'.tails c.key ≠ none := by
  obtain ⟨key, -, rfl⟩ | ⟨i, key, prior, -, hc, -, rfl⟩ | ⟨i, outcome, key, prior, -, hc, rfl⟩ :=
    step_cases hstep
  · intro c hmem
    by_cases heq : c.key = key
    · simp only [heq, Function.update_self]
      exact nofun
    · have hbefore : c ∈ s.calls := by
        obtain h | h := mem_append.mp hmem
        · exact h
        · rw [mem_singleton.mp h] at heq
          exact absurd rfl heq
      intro hnone
      exact h c hbefore ((Function.update_of_ne heq ..).symm.trans hnone)
  · intro c hmem
    obtain hmem | rfl := mem_or_eq_of_mem_set hmem
    · exact h c hmem
    · exact h ⟨key, prior, .waiting⟩ (mem_of_getElem? hc)
  · have hlast : s.tails key ≠ some (.again i) := by
      intro hlast
      have hguards := hinv.tails key
      rw [hlast] at hguards
      obtain ⟨last, -, hpromise, -⟩ := hguards
      cases hpromise
    intro c hmem
    rw [if_neg hlast]
    obtain hmem | rfl := mem_or_eq_of_mem_set hmem
    · exact h c hmem
    · exact h ⟨key, prior, .running⟩ (mem_of_getElem? hc)

/-- A key that was called keeps a chain. -/
theorem kept_of_run (hrun : run step {} events = some s) : ∀ c ∈ s.calls, s.tails c.key ≠ none := by
  have hkept : Inv s ∧ ∀ c ∈ s.calls, s.tails c.key ≠ none := by
    apply run_invariant (P := fun _ ↦ True) _ hrun (by simp)
    · exact ⟨.initial, by simp⟩
    · intro s event s' _ hstep h
      exact ⟨h.1.kept (fun _ ↦ .inr rfl) hstep, kept_chain hstep h.1 h.2⟩
  exact hkept.2

/-- Functions on a key run one at a time in the order of their calls, also after one that threw. A
key whose calls have settled is no longer held exactly when there was no call on it. -/
theorem settled_key_removed_iff (hrun : run step {} events = some s) :
    Serialised .again s ∧ Delivered events s ∧
      ∀ key, (∀ c ∈ s.calls, c.key = key → c.isSettled = true) →
        (s.tails key = none ↔ ∀ c ∈ s.calls, c.key ≠ key) := by
  have hinv := Inv.of_run (fun _ ↦ .inr rfl) hrun
  refine ⟨hinv.serialised _, delivered_of_run hrun, fun key _ ↦ ⟨fun hnone c hmem hkey ↦ ?_, ?_⟩⟩
  · exact kept_of_run hrun c hmem (hkey ▸ hnone)
  · intro hno
    cases htail : s.tails key with
    | none => rfl
    | some promise =>
      have hguards := hinv.tails key
      rw [htail] at hguards
      obtain ⟨last, -, -, ⟨c, hc, hkey⟩, -⟩ := hguards
      exact absurd hkey (hno c (mem_of_getElem? hc))

/-- A schedule that goes on as long as it can settles all the functions, with two steps for each that
waited and one for each that ran, and leaves a chain under each of their keys. -/
theorem every_function_settles {before : List (Event String (Except ε α))} (outcome : Except ε α)
    (hrun : run step {} before = some s) (hmore : run step s events = some s')
    (hold : ∀ key, .come key ∉ events) (hstart : ∀ i, step s' (.start i) = none)
    (hfinish : ∀ i, step s' (.finish i outcome) = none) :
    (∀ c ∈ s'.calls, c.isSettled = true ∧ s'.tails c.key ≠ none) ∧
      events.length = stepsLeft s.calls := by
  obtain ⟨hsettled, hlength⟩ := settles (fun _ ↦ .inr rfl) hrun hmore hold hstart hfinish
  have hall : run step {} (before ++ events) = some s' := by
    rw [run_append, hrun]
    exact hmore
  exact ⟨fun c hc ↦ ⟨hsettled c hc, kept_of_run hall c hc⟩, hlength⟩

/-- A call that runs to its end. -/
def oneCall : List (Event String (Except String Nat)) :=
  [.come "app", .start 0, .finish 0 (.ok 1)]

theorem other_key_not_held : ∃ s, run step {} oneCall = some s ∧ s.tails "other" = none := by
  have hrun : run step {} oneCall = some _ := rfl
  exact ⟨_, hrun, ((settled_key_removed_iff hrun).2.2 "other" (by decide)).mpr (by decide)⟩

/-- The only call has settled, and its chain is still there. -/
theorem settled_key_held : ∃ s, run step {} oneCall = some s ∧
    (∀ c ∈ s.calls, c.isSettled = true) ∧ s.tails "app" ≠ none :=
  ⟨_, rfl, by decide, by decide⟩

theorem function_settles : ∃ s : State String (Except String Nat), run step {} oneCall = some s ∧
    ∀ c ∈ s.calls, c.isSettled = true ∧ s.tails c.key ≠ none := by
  have hall : run step {} (oneCall.take 1 ++ oneCall.drop 1) = some _ := rfl
  obtain ⟨_, hrun, hmore⟩ := run_split hall
  have hsettles := every_function_settles (.ok 0) hrun hmore (by simp [oneCall])
    (fun i ↦ by rcases i with _ | i <;> rfl) fun i ↦ by rcases i with _ | i <;> rfl
  exact ⟨_, hall, hsettles.1⟩

end PrivosCluster.LocalRuntime.KeyedMutex
