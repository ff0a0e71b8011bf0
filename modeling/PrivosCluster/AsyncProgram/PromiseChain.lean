import Mathlib.Logic.Function.Basic
import PrivosCluster.Transitions.Runs

/-!
# Locks made of promises

A lock with a key is a map from keys to promises. A call waits for the promise it finds under its
key and leaves one that is resolved after that promise and its own end. At its end it takes the key
off the map where the promise there is the one it compares with.
-/

namespace PromiseChain

open Transitions List Function Option

/-- The promises that a call derives from the one it waits for, when it comes and at its end. -/
inductive Promise where
  | tail (call : Nat)
  | again (call : Nat)
deriving DecidableEq

def Promise.call : Promise → Nat
  | .tail call => call
  | .again call => call

inductive Phase (ρ : Type) where
  | waiting
  | running
  | settled (outcome : ρ)
deriving DecidableEq

structure Call (κ ρ : Type) where
  key : κ
  /-- The promise that is waited for, where there is one. -/
  prior : Option Promise
  phase : Phase ρ

def Call.isSettled {κ ρ : Type} (call : Call κ ρ) : Bool :=
  match call.phase with
  | .settled _ => true
  | _ => false

/-- The calls in the order in which they came, and the map. -/
structure State (κ ρ : Type) where
  calls : List (Call κ ρ) := []
  tails : κ → Option Promise := fun _ ↦ none

inductive Event (κ ρ : Type) where
  | come (key : κ)
  | start (call : Nat)
  | finish (call : Nat) (outcome : ρ)

variable {κ ρ : Type}

/-- A derived promise is resolved once the one it is derived from is, and its call has settled. -/
def resolved (calls : List (Call κ ρ)) : (fuel : Nat) → Option Promise → Bool
  | _, none => true
  | 0, some _ => false
  | fuel + 1, some promise =>
    match calls[promise.call]? with
    | some call => call.isSettled && resolved calls fuel call.prior
    | none => false

variable [DecidableEq κ]

/-- `compared` is the promise with which a call compares at its end. -/
def step (compared : Nat → Promise) (s : State κ ρ) : Event κ ρ → Option (State κ ρ)
  | .come key => some
    { calls := s.calls ++ [⟨key, s.tails key, .waiting⟩]
      tails := Function.update s.tails key (some (.tail s.calls.length)) }
  | .start i =>
    match s.calls[i]? with
    | some ⟨key, prior, .waiting⟩ =>
      if resolved s.calls s.calls.length prior then
        some { s with calls := s.calls.set i ⟨key, prior, .running⟩ }
      else none
    | _ => none
  | .finish i outcome =>
    match s.calls[i]? with
    | some ⟨key, prior, .running⟩ => some
      { calls := s.calls.set i ⟨key, prior, .settled outcome⟩
        tails :=
          if s.tails key = some (compared i) then Function.update s.tails key none else s.tails }
    | _ => none

/-! ## What a promise stands for -/

/-- The promise under a key stands for the calls before the `n`th: the last of them has made it. -/
def Guards (calls : List (Call κ ρ)) (key : κ) (n : Nat) : Option Promise → Prop
  | none => ∀ i < n, ∀ c : Call κ ρ, calls[i]? = some c → c.key = key → c.isSettled = true
  | some promise => ∃ i < n, promise = .tail i ∧ (∃ c : Call κ ρ, calls[i]? = some c ∧ c.key = key) ∧
    ∀ k, i < k → k < n → ∀ c : Call κ ρ, calls[k]? = some c → c.key ≠ key

/-- Calls on a key have settled when a later one has started. -/
def Ordered (calls : List (Call κ ρ)) : Prop :=
  ∀ (i j : Nat) (c c' : Call κ ρ), i < j → calls[i]? = some c → calls[j]? = some c' → c.key = c'.key →
    c'.phase ≠ .waiting → c.isSettled = true

structure Inv (s : State κ ρ) : Prop where
  ordered : Ordered s.calls
  prior : ∀ j (c : Call κ ρ), s.calls[j]? = some c → Guards s.calls c.key j c.prior
  tails : ∀ key, Guards s.calls key s.calls.length (s.tails key)

variable {calls calls' : List (Call κ ρ)} {key : κ} {n i : Nat} {promise : Option Promise}
  {c c' : Call κ ρ}

section

omit [DecidableEq κ]

theorem Call.phase_ne_waiting (h : c.isSettled = true) : c.phase ≠ .waiting := by
  intro hwaiting
  simp [isSettled, hwaiting] at h

/-- Once the call that made the promise has settled, those before it on the key have as well. -/
theorem Guards.settled_of_last {last : Promise} (h : Guards calls key n (some last))
    (hordered : Ordered calls)
    (hlast : ∀ c, calls[last.call]? = some c → c.isSettled = true) :
    Guards calls key n none := by
  obtain ⟨last, -, rfl, ⟨d, hd, hkey⟩, hafter⟩ := h
  have hsettled := hlast d hd
  intro i hi c hc hc'
  obtain hlt | rfl | hgt := Nat.lt_trichotomy i last
  · exact hordered i last c d hlt hc hd (hc'.trans hkey.symm) (Call.phase_ne_waiting hsettled)
  · exact hlast c hc
  · exact absurd hc' (hafter i hgt hi c hc)

/-- A resolved promise says that the calls it stands for have settled. -/
theorem Guards.settled (h : Guards calls key n promise) (hordered : Ordered calls) {fuel : Nat}
    (hresolved : resolved calls fuel promise = true) : Guards calls key n none := by
  cases promise with
  | none => exact h
  | some promise =>
    apply h.settled_of_last hordered
    intro c hc
    cases fuel with
    | zero => cases hresolved
    | succ fuel =>
      simp only [resolved, hc, Bool.and_eq_true] at hresolved
      exact hresolved.1

/-- A promise is resolved when the calls it stands for have settled. -/
theorem Guards.resolved
    (hprior : ∀ j (c : Call κ ρ), calls[j]? = some c → Guards calls c.key j c.prior)
    (h : Guards calls key n promise) (hsettled : Guards calls key n none) {fuel : Nat}
    (hfuel : n ≤ fuel) : resolved calls fuel promise = true := by
  induction fuel generalizing n promise with
  | zero =>
    cases promise with
    | none => rfl
    | some promise =>
      obtain ⟨last, hlast, -⟩ := h
      omega
  | succ fuel ih =>
    cases promise with
    | none => rfl
    | some promise =>
      obtain ⟨last, hlast, rfl, ⟨d, hd, rfl⟩, -⟩ := h
      simp only [PromiseChain.resolved, Promise.call, hd, Bool.and_eq_true]
      constructor
      · exact hsettled last hlast d hd rfl
      · apply ih (hprior last d hd) _ (by omega)
        exact fun i hi ↦ hsettled i (Nat.lt_trans hi hlast)

/-! ## One step -/

/-- The calls are still there, and those that had settled still have. -/
def Grows (calls calls' : List (Call κ ρ)) : Prop :=
  ∀ (i : Nat) (c : Call κ ρ), calls[i]? = some c → ∃ c' : Call κ ρ, calls'[i]? = some c' ∧ c'.key = c.key ∧
    c'.prior = c.prior ∧ (c.isSettled = true → c'.isSettled = true)

theorem Grows.append (added : List (Call κ ρ)) : Grows calls (calls ++ added) := by
  intro i c hc
  have hi := (List.getElem?_eq_some_iff.mp hc).1
  exact ⟨c, by rw [getElem?_append_left hi, hc], rfl, rfl, id⟩

theorem Grows.set (hc : calls[i]? = some c) (hkey : c'.key = c.key) (hprior : c'.prior = c.prior)
    (hsettled : c.isSettled = true → c'.isSettled = true) : Grows calls (calls.set i c') := by
  intro j d hd
  have hj := (List.getElem?_eq_some_iff.mp hd).1
  by_cases heq : i = j
  · subst heq
    obtain rfl := some.inj (hc.symm.trans hd)
    exact ⟨c', getElem?_set_self hj, hkey, hprior, hsettled⟩
  · exact ⟨d, by rw [getElem?_set_ne heq, hd], rfl, rfl, id⟩

theorem Guards.grows (h : Guards calls key n promise) (hgrows : Grows calls calls')
    (hn : n ≤ calls.length) : Guards calls' key n promise := by
  have hback : ∀ i < n, ∀ c' : Call κ ρ, calls'[i]? = some c' → ∃ c : Call κ ρ, calls[i]? = some c ∧ c'.key = c.key ∧
      (c.isSettled = true → c'.isSettled = true) := by
    intro i hi c' hc'
    have hc := getElem?_eq_getElem (Nat.lt_of_lt_of_le hi hn)
    obtain ⟨d, hd, hkey, -, hsettled⟩ := hgrows i _ hc
    obtain rfl := some.inj (hc'.symm.trans hd)
    exact ⟨_, hc, hkey, hsettled⟩
  cases promise with
  | none =>
    intro i hi c' hc' hkey
    obtain ⟨c, hc, hsame, hsettled⟩ := hback i hi c' hc'
    exact hsettled (h i hi c hc (hsame.symm.trans hkey))
  | some promise =>
    obtain ⟨last, hlast, hpromise, ⟨d, hd, hkey⟩, hafter⟩ := h
    obtain ⟨d', hd', hsame, -⟩ := hgrows last d hd
    refine ⟨last, hlast, hpromise, ⟨d', hd', hsame.trans hkey⟩, fun k hk hk' c' hc' heq ↦ ?_⟩
    obtain ⟨c, hc, hsame, -⟩ := hback k hk' c' hc'
    exact hafter k hk hk' c hc (hsame.symm.trans heq)

theorem Guards.extend (h : Guards calls key n promise)
    (hnext : ∀ c, calls[n]? = some c → c.key ≠ key) : Guards calls key (n + 1) promise := by
  cases promise with
  | none =>
    intro i hi c hc hkey
    obtain hlt | rfl := Nat.lt_succ_iff_lt_or_eq.mp hi
    · exact h i hlt c hc hkey
    · exact absurd hkey (hnext c hc)
  | some promise =>
    obtain ⟨last, hlast, hpromise, hmade, hafter⟩ := h
    refine ⟨last, Nat.lt_succ_of_lt hlast, hpromise, hmade, fun k hk hk' ↦ ?_⟩
    obtain hlt | rfl := Nat.lt_succ_iff_lt_or_eq.mp hk'
    · exact hafter k hk hlt
    · exact hnext

/-- A call that starts or settles when those before it have settled. -/
theorem Ordered.set (h : Ordered calls) (hc : calls[i]? = some c) (hkey : c'.key = c.key)
    (hsettled : c.isSettled = true → c'.isSettled = true)
    (hearlier : Guards calls c.key i none) : Ordered (calls.set i c') := by
  intro j k d d' hlt hd hd' heq hphase
  by_cases hk : i = k
  · subst hk
    rw [getElem?_set_ne (by omega)] at hd
    rw [getElem?_set_self (List.getElem?_eq_some_iff.mp hc).1] at hd'
    obtain rfl := some.inj hd'
    exact hearlier j hlt d hd (heq.trans hkey)
  · rw [getElem?_set_ne hk] at hd'
    by_cases hj : i = j
    · subst hj
      rw [getElem?_set_self (List.getElem?_eq_some_iff.mp hc).1] at hd
      obtain rfl := some.inj hd
      exact hsettled (h i k c d' hlt hc hd' (hkey.symm.trans heq) hphase)
    · rw [getElem?_set_ne hj] at hd
      exact h j k d d' hlt hd hd' heq hphase

theorem Ordered.snoc (h : Ordered calls) (hphase : c.phase = .waiting) :
    Ordered (calls ++ [c]) := by
  intro j k d d' hlt hd hd' heq hstarted
  obtain hk | hk := Nat.lt_or_ge k calls.length
  · rw [getElem?_append_left (by omega)] at hd hd'
    exact h j k d d' hlt hd hd' heq hstarted
  · rw [getElem?_append_right hk, getElem?_singleton] at hd'
    split at hd'
    · rw [some.inj hd'] at hphase
      exact absurd hphase hstarted
    · cases hd'

variable {s s' : State κ ρ}

/-- A call that starts or settles changes nothing of what the promises stand for. -/
theorem Inv.set (h : Inv s) (hc : s.calls[i]? = some c) (hkey : c'.key = c.key)
    (hprior : c'.prior = c.prior) (hsettled : c.isSettled = true → c'.isSettled = true)
    (hearlier : Guards s.calls c.key i none) : Inv { s with calls := s.calls.set i c' } := by
  have hgrows := Grows.set hc hkey hprior hsettled
  have hlength : (s.calls.set i c').length = s.calls.length := length_set
  constructor
  · exact h.ordered.set hc hkey hsettled hearlier
  · intro j d hd
    have hj : j < s.calls.length := by
      rw [← hlength]
      exact (List.getElem?_eq_some_iff.mp hd).1
    have hold := getElem?_eq_getElem hj
    obtain ⟨d', hd', hkey, hprior, -⟩ := hgrows j _ hold
    obtain rfl := some.inj (hd.symm.trans hd')
    rw [hkey, hprior]
    exact (h.prior j _ hold).grows hgrows (Nat.le_of_lt hj)
  · intro key
    change Guards (s.calls.set i c') key (s.calls.set i c').length (s.tails key)
    rw [hlength]
    exact (h.tails key).grows hgrows (Nat.le_refl _)

end

variable {s s' : State κ ρ}

theorem Inv.come (h : Inv s) (key : κ) : Inv
    { calls := s.calls ++ [⟨key, s.tails key, .waiting⟩]
      tails := Function.update s.tails key (some (.tail s.calls.length)) } := by
  have hgrows : Grows s.calls (s.calls ++ [⟨key, s.tails key, .waiting⟩]) := .append _
  have hlast : (s.calls ++ [⟨key, s.tails key, .waiting⟩])[s.calls.length]? =
      some ⟨key, s.tails key, .waiting⟩ := by
    simp
  constructor
  · exact h.ordered.snoc rfl
  · intro j d hd
    obtain hj | hj := Nat.lt_or_ge j s.calls.length
    · rw [getElem?_append_left hj] at hd
      exact (h.prior j d hd).grows hgrows (Nat.le_of_lt hj)
    · have hlength := (List.getElem?_eq_some_iff.mp hd).1
      rw [length_append, length_singleton] at hlength
      obtain rfl : j = s.calls.length := by omega
      obtain rfl := some.inj (hlast.symm.trans hd)
      exact (h.tails key).grows hgrows (Nat.le_refl _)
  · intro key'
    change Guards _ key' (s.calls ++ _).length (Function.update s.tails key _ key')
    rw [length_append, length_singleton]
    by_cases heq : key' = key
    · rw [heq, update_self]
      exact ⟨_, Nat.lt_succ_self _, rfl, ⟨_, hlast, rfl⟩, fun k hk hk' ↦ by omega⟩
    · rw [update_of_ne heq]
      apply ((h.tails key').grows hgrows (Nat.le_refl _)).extend
      intro c hc hkey
      rw [← some.inj (hlast.symm.trans hc)] at hkey
      exact heq hkey.symm

variable {compared : Nat → Promise} {event : Event κ ρ} {events : List (Event κ ρ)}

/-- What a step does. -/
theorem step_cases (h : step compared s event = some s') :
    (∃ key, event = .come key ∧ s' =
      { calls := s.calls ++ [⟨key, s.tails key, .waiting⟩]
        tails := Function.update s.tails key (some (.tail s.calls.length)) }) ∨
    (∃ i key prior, event = .start i ∧ s.calls[i]? = some ⟨key, prior, .waiting⟩ ∧
      resolved s.calls s.calls.length prior = true ∧
      s' = { s with calls := s.calls.set i ⟨key, prior, .running⟩ }) ∨
    ∃ i outcome key prior, event = .finish i outcome ∧
      s.calls[i]? = some ⟨key, prior, .running⟩ ∧ s' =
      { calls := s.calls.set i ⟨key, prior, .settled outcome⟩
        tails :=
          if s.tails key = some (compared i) then Function.update s.tails key none else s.tails } := by
  cases event with
  | come key => exact .inl ⟨key, rfl, (some.inj h).symm⟩
  | start i =>
    simp only [step] at h
    split at h
    · split at h
      · exact .inr (.inl ⟨i, _, _, rfl, ‹_›, ‹_›, (some.inj h).symm⟩)
      · cases h
    · cases h
  | finish i outcome =>
    simp only [step] at h
    split at h
    · exact .inr (.inr ⟨i, outcome, _, _, rfl, ‹_›, (some.inj h).symm⟩)
    · cases h

theorem Inv.kept (hcompared : ∀ i, compared i = .tail i ∨ compared i = .again i)
    (hstep : step compared s event = some s') (h : Inv s) : Inv s' := by
  obtain ⟨key, -, rfl⟩ | ⟨i, key, prior, -, hc, hresolved, rfl⟩ |
    ⟨i, outcome, key, prior, -, hc, rfl⟩ := step_cases hstep
  · exact h.come key
  · exact h.set hc rfl rfl id ((h.prior i _ hc).settled h.ordered hresolved)
  · have hearlier : Guards s.calls key i none := by
      intro j hj d hd hkey
      exact h.ordered j i d _ hj hd hc hkey nofun
    have hset : Inv { s with calls := s.calls.set i ⟨key, prior, .settled outcome⟩ } :=
      h.set hc rfl rfl (fun _ ↦ rfl) hearlier
    refine ⟨hset.ordered, hset.prior, fun key' ↦ ?_⟩
    have htails := hset.tails key'
    dsimp only at htails ⊢
    split
    next hlast =>
      by_cases heq : key' = key
      · subst heq
        rw [update_self]
        rw [hlast] at htails
        apply htails.settled_of_last hset.ordered
        intro d hd
        have hcall : (compared i).call = i := by
          obtain h | h := hcompared i <;> rw [h] <;> rfl
        rw [hcall, getElem?_set_self (List.getElem?_eq_some_iff.mp hc).1] at hd
        rw [← some.inj hd]
        rfl
      · rw [update_of_ne heq]
        exact htails
    next => exact htails

omit [DecidableEq κ] in
theorem Inv.initial : Inv ({} : State κ ρ) := by
  constructor
  · exact fun i j c c' _ hc ↦ by simp at hc
  · exact fun j c hc ↦ by simp at hc
  · exact fun key i hi ↦ by simp at hi

theorem Inv.of_run (hcompared : ∀ i, compared i = .tail i ∨ compared i = .again i)
    (hrun : run (step compared) {} events = some s) : Inv s :=
  run_invariant (P := fun _ ↦ True) (fun _ hstep ↦ Inv.kept hcompared hstep) hrun (by simp) .initial

/-! ## What a lock promises -/

/-- The calls on a key run one at a time, in the order in which they came. -/
structure Serialised (compared : Nat → Promise) (s : State κ ρ) : Prop where
  exclusive : ∀ (i j : Nat) (c c' : Call κ ρ), s.calls[i]? = some c → s.calls[j]? = some c' →
    c.key = c'.key → c.phase = .running → c'.phase = .running → i = j
  inOrder : Ordered s.calls
  /-- A call can start as soon as the earlier ones have settled, whatever their outcomes. -/
  handsOver : ∀ (i : Nat) (c : Call κ ρ), s.calls[i]? = some c → c.phase = .waiting →
    (∀ j < i, ∀ c', s.calls[j]? = some c' → c'.key = c.key → c'.isSettled = true) →
    (step compared s (.start i)).isSome = true

/-- The caller gets what the action ended with. -/
def Delivered (events : List (Event κ ρ)) (s : State κ ρ) : Prop :=
  ∀ i outcome, .finish i outcome ∈ events →
    ∃ c, s.calls[i]? = some c ∧ c.phase = .settled outcome

theorem Inv.serialised (compared : Nat → Promise) (h : Inv s) : Serialised compared s := by
  constructor
  · intro i j c c' hc hc' hkey hrunning hrunning'
    by_contra hne
    obtain hlt | hlt := Nat.lt_or_gt_of_ne hne
    · have hsettled := h.ordered i j c c' hlt hc hc' hkey (by rw [hrunning']; exact nofun)
      simp [Call.isSettled, hrunning] at hsettled
    · have hsettled := h.ordered j i c' c hlt hc' hc hkey.symm (by rw [hrunning]; exact nofun)
      simp [Call.isSettled, hrunning'] at hsettled
  · exact h.ordered
  · intro i c hc hwaiting hearlier
    have hi := Nat.le_of_lt (List.getElem?_eq_some_iff.mp hc).1
    have hresolved := (h.prior i c hc).resolved h.prior hearlier hi
    obtain ⟨key, prior, phase⟩ := c
    obtain rfl : phase = .waiting := hwaiting
    simp [step, hc, hresolved]

theorem delivered_of_run (hrun : run (step compared) {} events = some s) : Delivered events s := by
  intro i outcome hmem
  obtain ⟨earlier, later, rfl⟩ := append_of_mem hmem
  obtain ⟨between, -, hrest⟩ := run_split hrun
  obtain ⟨next, hnext, hlater⟩ := run_cons hrest
  apply run_invariant (P := fun _ ↦ True) (I := fun s : State κ ρ ↦
    ∃ c, s.calls[i]? = some c ∧ c.phase = .settled outcome) _ hlater (by simp)
  · obtain ⟨_, h, -⟩ | ⟨_, _, _, h, -⟩ | ⟨j, _, key, prior, h, hc, rfl⟩ := step_cases hnext
    · cases h
    · cases h
    · obtain ⟨rfl, rfl⟩ := Event.finish.inj h
      exact ⟨_, getElem?_set_self (List.getElem?_eq_some_iff.mp hc).1, rfl⟩
  · intro s event s' _ hstep ⟨c, hc, hsettled⟩
    obtain ⟨_, -, rfl⟩ | ⟨j, _, _, -, hd, -, rfl⟩ | ⟨j, _, _, _, -, hd, rfl⟩ := step_cases hstep
    · exact ⟨c, by rw [getElem?_append_left (List.getElem?_eq_some_iff.mp hc).1, hc], hsettled⟩
    all_goals
      by_cases hj : j = i
      · subst hj
        rw [hd] at hc
        rw [← some.inj hc] at hsettled
        cases hsettled
      · exact ⟨c, by rw [getElem?_set_ne hj, hc], hsettled⟩

/-! ## Every call ends -/

/-- The steps that a call still takes: to start, and to end. -/
def Phase.left : Phase ρ → Nat
  | .waiting => 2
  | .running => 1
  | .settled _ => 0

def stepsLeft : List (Call κ ρ) → Nat
  | [] => 0
  | c :: calls => c.phase.left + stepsLeft calls

omit [DecidableEq κ] in
theorem stepsLeft_set (c' : Call κ ρ) (hc : calls[i]? = some c) :
    stepsLeft (calls.set i c') + c.phase.left = stepsLeft calls + c'.phase.left := by
  induction calls generalizing i with
  | nil => cases hc
  | cons d calls ih =>
    cases i with
    | zero =>
      obtain rfl := some.inj hc
      simp only [set_cons_zero, stepsLeft]
      omega
    | succ i =>
      have hrest := ih hc
      simp only [set_cons_succ, stepsLeft]
      omega

theorem stepsLeft_of_step (hold : ∀ key, event ≠ .come key)
    (hstep : step compared s event = some s') : stepsLeft s.calls = stepsLeft s'.calls + 1 := by
  obtain ⟨key, rfl, -⟩ | ⟨i, key, prior, -, hc, -, rfl⟩ | ⟨i, outcome, key, prior, -, hc, rfl⟩ :=
    step_cases hstep
  · exact absurd rfl (hold key)
  · have hset := stepsLeft_set ⟨key, prior, .running⟩ hc
    simp only [Phase.left] at hset ⊢
    omega
  · have hset := stepsLeft_set ⟨key, prior, .settled outcome⟩ hc
    simp only [Phase.left] at hset ⊢
    omega

/-- No schedule goes on for longer than the calls take. -/
theorem stepsLeft_of_run (hrun : run (step compared) s events = some s')
    (hold : ∀ key, .come key ∉ events) :
    stepsLeft s.calls = stepsLeft s'.calls + events.length := by
  induction events generalizing s with
  | nil =>
    obtain rfl := some.inj hrun
    rfl
  | cons event events ih =>
    obtain ⟨next, hstep, hrest⟩ := run_cons hrun
    rw [stepsLeft_of_step (fun key h ↦ hold key (h ▸ mem_cons_self)) hstep,
      ih hrest fun key h ↦ hold key (mem_cons_of_mem _ h), length_cons]
    omega

/-- The first call that has not settled can go on. -/
theorem Inv.settled_of_stuck (h : Inv s) {outcome : ρ}
    (hstart : ∀ i, step compared s (.start i) = none)
    (hfinish : ∀ i, step compared s (.finish i outcome) = none) (i : Nat) (c : Call κ ρ)
    (hc : s.calls[i]? = some c) : c.isSettled = true := by
  induction i using Nat.strongRecOn generalizing c with
  | ind i ih =>
    obtain ⟨key, prior, phase⟩ := c
    cases phase with
    | waiting =>
      have hcan := (h.serialised compared).handsOver i _ hc rfl fun j hj d hd _ ↦ ih j hj d hd
      rw [hstart i] at hcan
      cases hcan
    | running => simpa [step, hc] using hfinish i
    | settled _ => rfl

omit [DecidableEq κ] in
theorem stepsLeft_eq_zero (h : ∀ c ∈ calls, c.isSettled = true) : stepsLeft calls = 0 := by
  induction calls with
  | nil => rfl
  | cons c calls ih =>
    obtain ⟨hc, hrest⟩ := forall_mem_cons.mp h
    rw [stepsLeft, ih hrest]
    cases hphase : c.phase <;> simp_all [Call.isSettled, Phase.left]

/-- A schedule without new calls that goes on as long as it can settles every call. -/
theorem settles {before : List (Event κ ρ)} {outcome : ρ}
    (hcompared : ∀ i, compared i = .tail i ∨ compared i = .again i)
    (hrun : run (step compared) {} before = some s) (hmore : run (step compared) s events = some s')
    (hold : ∀ key, .come key ∉ events) (hstart : ∀ i, step compared s' (.start i) = none)
    (hfinish : ∀ i, step compared s' (.finish i outcome) = none) :
    (∀ c ∈ s'.calls, c.isSettled = true) ∧ events.length = stepsLeft s.calls := by
  have hall : run (step compared) {} (before ++ events) = some s' := by
    rw [run_append, hrun]
    exact hmore
  have hsettled : ∀ c ∈ s'.calls, c.isSettled = true := by
    intro c hc
    obtain ⟨i, hi⟩ := getElem?_of_mem hc
    exact (Inv.of_run hcompared hall).settled_of_stuck hstart hfinish i c hi
  rw [stepsLeft_of_run hmore hold, stepsLeft_eq_zero hsettled, Nat.zero_add]
  exact ⟨hsettled, rfl⟩

end PromiseChain
