import PrivosCluster.AsyncProgram.Discipline

/-!
# Histories of operations

Operations executed one after the other, each to its end or until the process stopped.
-/

namespace AsyncProgram

open List

variable {σ : Signature} {ε S X ι : Type}

/-- One operation of a history, with the states around it. -/
structure HistoryStep (ι ε S : Type) where
  operation : ι
  outcome : Outcome ε Unit
  before : S
  after : S

inductive History (m : Machine σ ε S X) (operation : ι → Program σ ε Unit) (s : S) :
    List (HistoryStep ι ε S) → S → Prop where
  | start : History m operation s [] s
  | step {steps : List (HistoryStep ι ε S)} {s' s'' : S} {i : ι} {outcome : Outcome ε Unit}
      (earlier : History m operation s steps s')
      (execution : Executes m (operation i) s' outcome s'') :
      History m operation s (steps ++ [⟨i, outcome, s', s''⟩]) s''

namespace History

variable {m : Machine σ ε S X} {operation : ι → Program σ ε Unit} {s s' : S}
  {steps : List (HistoryStep ι ε S)}

theorem executes (history : History m operation s steps s') :
    ∀ step ∈ steps, Executes m (operation step.operation) step.before step.outcome step.after := by
  induction history with
  | start => exact nofun
  | step _ execution ih =>
    exact forall_mem_append.mpr ⟨ih, forall_mem_singleton.mpr execution⟩

/-- The history before one of its steps. -/
theorem upTo {earlier later : List (HistoryStep ι ε S)} {step : HistoryStep ι ε S}
    (history : History m operation s steps s') (hsteps : steps = earlier ++ step :: later) :
    History m operation s earlier step.before := by
  induction history generalizing later with
  | start => simp at hsteps
  | @step steps s' s'' i outcome earlier' execution ih =>
    obtain rfl | ⟨later, last, rfl⟩ := eq_nil_or_concat later
    · obtain ⟨rfl, hlast⟩ := append_inj' hsteps rfl
      obtain rfl : ⟨i, outcome, s', s''⟩ = step := singleton_inj.mp hlast
      exact earlier'
    · have hinit : steps ++ [⟨i, outcome, s', s''⟩] = (earlier ++ step :: later) ++ [last] := by
        rw [hsteps]
        simp
      exact ih (append_inj' hinit rfl).1

/-- What every operation keeps under its condition holds before each step and at the end. -/
theorem invariant {I : S → Prop} {C : HistoryStep ι ε S → Prop}
    (hkeep : ∀ step, C step →
      Executes m (operation step.operation) step.before step.outcome step.after →
      I step.before → I step.after)
    (history : History m operation s steps s') (hsteps : ∀ step ∈ steps, C step) (hs : I s) :
    (∀ step ∈ steps, I step.before ∧ I step.after) ∧ I s' := by
  induction history with
  | start => exact ⟨(nofun), hs⟩
  | @step steps s' s'' i outcome _ execution ih =>
    obtain ⟨hearlier, hI⟩ := ih fun step h ↦ hsteps step (mem_append_left _ h)
    have hlast : I s'' :=
      hkeep ⟨i, outcome, s', s''⟩ (hsteps _ (by simp)) execution hI
    refine ⟨fun step hstep ↦ ?_, hlast⟩
    obtain hstep | hstep := mem_append.mp hstep
    · exact hearlier step hstep
    · rw [mem_singleton.mp hstep]
      exact ⟨hI, hlast⟩

/-- A history in which the environment follows a policy at every call. -/
theorem run {policy : σ.Call → S → X} (lawful : ∀ c s, m.permits c (policy c s) s)
    (history : History m operation s steps s') (i : ι) :
    History m operation s
      (steps ++ [⟨i, .ofExcept (m.run policy (operation i) s').1, s',
        (m.run policy (operation i) s').2⟩])
      (m.run policy (operation i) s').2 :=
  .step history (m.executes_run policy lawful _ _)

end History

end AsyncProgram
