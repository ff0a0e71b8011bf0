import Mathlib.Data.List.Basic

/-!
# Runs of a partial transition function

A system that takes one event after the other. An event that is impossible in a state leads nowhere;
a run is a list of events each of which was possible when it came.
-/

namespace Transitions

variable {S E : Type}

/-- The events one after the other, as far as all of them are possible. -/
def run (step : S → E → Option S) (s : S) : List E → Option S
  | [] => some s
  | event :: events => (step s event).bind fun s' ↦ run step s' events

variable {step : S → E → Option S} {s s' : S}

theorem run_append (earlier later : List E) :
    run step s (earlier ++ later) = (run step s earlier).bind fun s' ↦ run step s' later := by
  induction earlier generalizing s with
  | nil => rfl
  | cons event events ih =>
    have hnext : run step s (event :: (events ++ later)) =
        (step s event).bind fun next ↦ (run step next events).bind fun s' ↦ run step s' later :=
      congrArg _ (funext fun next ↦ ih)
    rw [List.cons_append, hnext]
    exact (Option.bind_assoc _ _ _).symm

/-- The state between two parts of a run. -/
theorem run_split {earlier later : List E} (h : run step s (earlier ++ later) = some s') :
    ∃ between, run step s earlier = some between ∧ run step between later = some s' := by
  rw [run_append] at h
  exact Option.bind_eq_some_iff.mp h

variable {events : List E}

theorem run_cons {event : E} (h : run step s (event :: events) = some s') :
    ∃ next, step s event = some next ∧ run step next events = some s' :=
  Option.bind_eq_some_iff.mp h

/-- Every event of a run meets the condition in the state in which it comes. -/
def Throughout (step : S → E → Option S) (C : S → E → Prop) (s : S) (events : List E) : Prop :=
  ∀ earlier event later, events = earlier ++ event :: later →
    ∀ s', run step s earlier = some s' → C s' event

variable {C : S → E → Prop} {I : S → Prop}

theorem Throughout.nil : Throughout step C s [] := by
  intro earlier event later hsplit
  simp at hsplit

theorem Throughout.cons {event : E} (hevent : C s event) (hstep : step s event = some s')
    (h : Throughout step C s' events) : Throughout step C s (event :: events) := by
  intro earlier event' later hsplit s'' hrun
  cases earlier with
  | nil =>
    obtain ⟨rfl, rfl⟩ := List.cons.inj hsplit
    rw [← Option.some.inj hrun]
    exact hevent
  | cons first earlier =>
    obtain ⟨rfl, hrest⟩ := List.cons.inj hsplit
    rw [run, hstep] at hrun
    exact h earlier event' later hrest s'' hrun

/-- What every event that meets a condition keeps holds after a run of such events. -/
theorem Throughout.invariant
    (hkeep : ∀ {s event s'}, C s event → step s event = some s' → I s → I s')
    (hevents : Throughout step C s events) (h : run step s events = some s') (hs : I s) : I s' := by
  induction events generalizing s with
  | nil =>
    rw [← Option.some.inj h]
    exact hs
  | cons event events ih =>
    obtain ⟨next, hnext, hrest⟩ := run_cons h
    have hkept := hkeep (hevents [] event events rfl s rfl) hnext hs
    apply ih _ hrest hkept
    intro earlier event' later hsplit s'' hrun
    apply hevents (event :: earlier) event' later (by rw [hsplit]; rfl) s''
    rw [run, hnext]
    exact hrun

/-- What every possible event of a kind keeps holds after a run of events of this kind. -/
theorem run_invariant {P : E → Prop}
    (hkeep : ∀ {s event s'}, P event → step s event = some s' → I s → I s')
    (h : run step s events = some s') (hevents : ∀ event ∈ events, P event) (hs : I s) : I s' := by
  have hthroughout : Throughout step (fun _ event ↦ P event) s events := by
    intro earlier event later hsplit _ _
    exact hevents event (by simp [hsplit])
  exact hthroughout.invariant hkeep h hs

/-- Where an element of a list that was made longer stands. -/
theorem append_eq_split {α : Type} {earlier added before after : List α} {a : α}
    (h : earlier ++ added = before ++ a :: after) :
    (∃ between, after = between ++ added ∧ earlier = before ++ a :: between) ∨
      ∃ between, added = between ++ a :: after ∧ before = earlier ++ between := by
  obtain ⟨between, hbefore, hadded⟩ | ⟨between, hearlier, hafter⟩ := List.append_eq_append_iff.mp h
  · exact .inr ⟨between, hadded, hbefore⟩
  · cases between with
    | nil => exact .inr ⟨[], hafter.symm, by simpa using hearlier.symm⟩
    | cons b between =>
      obtain ⟨hb, hafter⟩ := List.cons.inj hafter
      rw [← hb] at hearlier
      exact .inl ⟨between, hafter, hearlier⟩

end Transitions
