import PrivosCluster.AsyncProgram.PromiseChain

/-!
# The lock of a workspace

`WorkspaceLock.run` waits for the tail of its workspace and leaves one of its own, which it takes
off the map at its end where it still is the tail.
-/

namespace PrivosCluster.Master.WorkspaceLock

open PromiseChain Transitions Function Option

variable {ε α : Type} {s s' : State String (Except ε α)}
  {events : List (Event String (Except ε α))}

/-- A call of `run`, the call of its action, and the end of the action with the `finally` block,
which compares what is in `tails` with the `tail` of its own call. -/
def step : State String (Except ε α) → Event String (Except ε α) →
    Option (State String (Except ε α)) :=
  PromiseChain.step .tail

/-- The last call with a tail in the map is still on its way. -/
def Pending (s : State String (Except ε α)) : Prop :=
  ∀ workspaceId tail, s.tails workspaceId = some tail →
    ∃ c, s.calls[tail.call]? = some c ∧ c.isSettled = false

theorem Pending.set {i : Nat} {c' : PromiseChain.Call String (Except ε α)}
    {tails' : String → Option Promise}
    (h : Pending s) (htails : ∀ workspaceId tail, tails' workspaceId = some tail →
      s.tails workspaceId = some tail ∧ (tail.call = i → c'.isSettled = false)) :
    Pending ⟨s.calls.set i c', tails'⟩ := by
  intro workspaceId tail htail
  obtain ⟨hbefore, hi⟩ := htails workspaceId tail htail
  obtain ⟨c, hc, hpending⟩ := h workspaceId tail hbefore
  by_cases heq : i = tail.call
  · subst heq
    exact ⟨c', List.getElem?_set_self (List.getElem?_eq_some_iff.mp hc).1, hi rfl⟩
  · exact ⟨c, by rw [List.getElem?_set_ne heq, hc], hpending⟩

theorem Pending.kept {event : Event String (Except ε α)} (hstep : step s event = some s')
    (hinv : Inv s) (h : Pending s) : Pending s' := by
  obtain ⟨key, -, rfl⟩ | ⟨i, key, prior, -, -, -, rfl⟩ | ⟨i, outcome, key, prior, -, hc, rfl⟩ :=
    step_cases hstep
  · intro workspaceId tail htail
    dsimp only at htail
    by_cases heq : workspaceId = key
    · rw [heq, update_self] at htail
      obtain rfl := some.inj htail
      exact ⟨⟨key, s.tails key, .waiting⟩, by simp [Promise.call], rfl⟩
    · rw [update_of_ne heq] at htail
      obtain ⟨c, hc, hpending⟩ := h workspaceId tail htail
      refine ⟨c, ?_, hpending⟩
      rw [List.getElem?_append_left (List.getElem?_eq_some_iff.mp hc).1, hc]
  · exact h.set fun _ _ htail ↦ ⟨htail, fun _ ↦ rfl⟩
  · apply h.set
    intro workspaceId tail htail
    have hguards := hinv.tails workspaceId
    split at htail
    next hlast =>
      by_cases heq : workspaceId = key
      · rw [heq, update_self] at htail
        cases htail
      · rw [update_of_ne heq] at htail
        rw [htail] at hguards
        obtain ⟨last, -, rfl, ⟨d, hd, hkey⟩, -⟩ := hguards
        refine ⟨htail, fun hi ↦ ?_⟩
        rw [← hi] at hc
        obtain rfl := some.inj (hd.symm.trans hc)
        exact absurd hkey.symm heq
    next hlater =>
      rw [htail] at hguards
      obtain ⟨last, -, rfl, ⟨d, hd, hkey⟩, -⟩ := hguards
      refine ⟨htail, fun hi ↦ ?_⟩
      rw [← hi] at hc hlater
      obtain rfl := some.inj (hd.symm.trans hc)
      obtain rfl : key = workspaceId := hkey
      exact absurd htail hlater

/-- Actions on a workspace run one at a time in the order of their calls, also after one that threw,
and nothing is left in the map once no call is pending. -/
theorem actions_serialised (hrun : run step {} events = some s) :
    Serialised .tail s ∧ Delivered events s ∧
      ((∀ c ∈ s.calls, c.isSettled = true) → ∀ workspaceId, s.tails workspaceId = none) := by
  have hinv := Inv.of_run (fun _ ↦ .inl rfl) hrun
  refine ⟨hinv.serialised _, delivered_of_run hrun, fun hsettled workspaceId ↦ ?_⟩
  have hpending : Inv s ∧ Pending s := by
    apply run_invariant (P := fun _ ↦ True) _ hrun (by simp)
    · exact ⟨.initial, nofun⟩
    · intro s event s' _ hstep h
      exact ⟨h.1.kept (fun _ ↦ .inl rfl) hstep, h.2.kept hstep h.1⟩
  cases htail : s.tails workspaceId with
  | none => rfl
  | some tail =>
    obtain ⟨c, hc, hunsettled⟩ := hpending.2 workspaceId tail htail
    rw [hsettled c (List.mem_of_getElem? hc)] at hunsettled
    cases hunsettled

/-- Whatever the order, a schedule that goes on as long as it can settles all the actions, with two
steps for each that waited and one for each that ran. -/
theorem every_action_settles {before : List (Event String (Except ε α))} (outcome : Except ε α)
    (hrun : run step {} before = some s) (hmore : run step s events = some s')
    (hold : ∀ workspaceId, .come workspaceId ∉ events) (hstart : ∀ i, step s' (.start i) = none)
    (hfinish : ∀ i, step s' (.finish i outcome) = none) :
    (∀ c ∈ s'.calls, c.isSettled = true) ∧ events.length = stepsLeft s.calls :=
  settles (fun _ ↦ .inl rfl) hrun hmore hold hstart hfinish

/-- The second action runs after the first has thrown. -/
def thrownFirst : List (Event String (Except String Nat)) :=
  [.come "team", .come "team", .start 0, .finish 0 (.error "refused"), .start 1, .finish 1 (.ok 2)]

theorem thrown_action_releases :
    ∃ s, run step {} thrownFirst = some s ∧ s.tails "team" = none := by
  have hrun : run step {} thrownFirst = some _ := rfl
  exact ⟨_, hrun, (actions_serialised hrun).2.2 (by decide) "team"⟩

theorem both_actions_settle : ∃ s : State String (Except String Nat),
    run step {} thrownFirst = some s ∧ ∀ c ∈ s.calls, c.isSettled = true := by
  have hall : run step {} (thrownFirst.take 2 ++ thrownFirst.drop 2) = some _ := rfl
  obtain ⟨_, hrun, hmore⟩ := run_split hall
  have hsettles := every_action_settles (.ok 0) hrun hmore (by simp [thrownFirst])
    (fun i ↦ by rcases i with _ | _ | i <;> rfl) fun i ↦ by rcases i with _ | _ | i <;> rfl
  exact ⟨_, hall, hsettles.1⟩

end PrivosCluster.Master.WorkspaceLock
