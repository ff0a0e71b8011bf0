import PrivosCluster.Routing.ProxyRouter
import PrivosCluster.Transitions.Runs

/-!
# The route cache

A call of `resolve` looks into the cache, then reads the containers and the address of the container,
and stores the target for a while. Each read happens at some moment while the call is suspended.
Calls run interleaved with each other, with calls of `refreshRoutes`, which empty the cache, and with
whatever happens to the containers.
-/

namespace PrivosCluster.Routing

open List Option

/-- What a router is made of. `W` is the state of the containers; a missing answer is a rejection. -/
structure RouterDeps (W : Type) where
  findByHost : W → SplitHost → Option (Option RoutedContainer)
  getContainerIp : W → String → Option (Option String)
  toLowerCase : List Char → List Char
  ttlMs : Int := 5000

def SplitHost.key (split : SplitHost) : List Char := split.subdomain ++ '.' :: split.domain

/-- `source` is the number of the call that stored the entry. -/
structure CachedRoute where
  target : ResolvedTarget
  expires : Int
  source : Nat

variable {call : Nat} {log : List Entry} {entry : Entry}

namespace RouteCache

/-- Where a call is suspended, and what its read has found if it has happened. -/
inductive Suspended where
  | findByHost (split : SplitHost) (found : Option (Option (Option RoutedContainer)))
  | getContainerIp (split : SplitHost) (container : RoutedContainer)
      (found : Option (Option (Option String)))

/-- What happened so far, with the numbers of the calls. A returned target was computed by the call
`source`. -/
inductive Entry where
  | refreshed
  | started (call : Nat)
  | read (call : Nat)
  | returned (call source : Nat) (target : ResolvedTarget)
deriving DecidableEq

/-- The router and the containers; `calls` holds the suspended calls, and `next` and `log` only
record what happened. -/
structure State (W : Type) where
  world : W
  cache : List Char → Option CachedRoute := fun _ ↦ none
  calls : Nat → Option Suspended := fun _ ↦ none
  next : Nat := 0
  log : List Entry := []

inductive Event (W : Type) where
  | happened (world : W)
  | refreshRoutes
  | resolve (rawHost : Option String) (domains : List String) (now : Int)
  | read (call : Nat)
  | resumed (call : Nat) (now : Int)

variable {W : Type}

/-- The call goes on to wait, or has ended. -/
def State.setCall (s : State W) (call : Nat) (suspended : Option Suspended) : State W :=
  { s with calls := Function.update s.calls call suspended }

def State.record (s : State W) (entry : Entry) : State W := { s with log := s.log ++ [entry] }

def State.refreshRoutes (s : State W) : State W :=
  { s with cache := fun _ ↦ none, log := s.log ++ [.refreshed] }

/-- A call of `resolve` up to its first suspension. -/
def State.resolve (deps : RouterDeps W) (s : State W) (rawHost : Option String)
    (domains : List String) (now : Int) : State W :=
  let call := s.next
  let s := { s with next := call + 1, log := s.log ++ [.started call] }
  match splitHost deps.toLowerCase rawHost domains with
  | none => s
  | some split =>
    match (s.cache split.key).filter fun cached ↦ now < cached.expires with
    | some cached => s.record (.returned call cached.source cached.target)
    | none => s.setCall call (some (.findByHost split none))

/-- The end of a call: the target is stored and returned. -/
def State.store (deps : RouterDeps W) (s : State W) (call : Nat) (split : SplitHost)
    (container : RoutedContainer) (url : String) (now : Int) : State W :=
  let target : ResolvedTarget := ⟨url, container.id, container.mcpV2⟩
  { s with
    cache := Function.update s.cache split.key (some ⟨target, now + deps.ttlMs, call⟩)
    calls := Function.update s.calls call none
    log := s.log ++ [.returned call call target] }

def step (deps : RouterDeps W) (s : State W) : Event W → Option (State W)
  | .happened world => some { s with world }
  | .refreshRoutes => some s.refreshRoutes
  | .resolve rawHost domains now => some (s.resolve deps rawHost domains now)
  | .read call =>
    match s.calls call with
    | some (.findByHost split none) =>
      some ((s.setCall call (some (.findByHost split (some (deps.findByHost s.world split))))).record
        (.read call))
    | some (.getContainerIp split container none) =>
      some ((s.setCall call (some (.getContainerIp split container
        (some (deps.getContainerIp s.world container.dockerContainerId))))).record (.read call))
    | _ => none
  | .resumed call now =>
    match s.calls call with
    | some (.findByHost split (some found)) =>
      match found.join.filter fun container ↦ container.state = .running with
      | none => some (s.setCall call none)
      | some container => some (s.setCall call (some (.getContainerIp split container none)))
    | some (.getContainerIp split container (some found)) =>
      -- A rejected `getContainerIp` is no address.
      match targetForContainer container found.join with
      | none => some (s.setCall call none)
      | some url => some (s.store deps call split container url now)
    | _ => none

/-- The host a suspended call is for. -/
def Suspended.split : Suspended → SplitHost
  | .findByHost split _ => split
  | .getContainerIp split _ _ => split

/-- How an event changes the router. -/
inductive Effect (deps : RouterDeps W) (s : State W) : Event W → State W → Prop where
  | happened (world : W) : Effect deps s (.happened world) { s with world }
  | refreshRoutes : Effect deps s .refreshRoutes s.refreshRoutes
  | resolve (rawHost : Option String) (domains : List String) (now : Int) :
      Effect deps s (.resolve rawHost domains now) (s.resolve deps rawHost domains now)
  | read {call : Nat} (before after : Suspended) (h : s.calls call = some before)
      (hsplit : after.split = before.split) :
      Effect deps s (.read call) ((s.setCall call (some after)).record (.read call))
  | ended {call : Nat} {now : Int} : Effect deps s (.resumed call now) (s.setCall call none)
  | goesOn {call : Nat} {now : Int} (before after : Suspended) (h : s.calls call = some before)
      (hsplit : after.split = before.split) :
      Effect deps s (.resumed call now) (s.setCall call (some after))
  | store {call : Nat} {now : Int} (split : SplitHost) (container : RoutedContainer)
      (found : Option (Option String)) (url : String)
      (h : s.calls call = some (.getContainerIp split container (some found)))
      (htarget : targetForContainer container found.join = some url) :
      Effect deps s (.resumed call now) (s.store deps call split container url now)

section Steps

variable {deps : RouterDeps W} {s s' : State W} {event : Event W}

theorem step_effect (h : step deps s event = some s') : Effect deps s event s' := by
  cases event with
  | happened world =>
    rw [← some.inj h]
    exact .happened world
  | refreshRoutes =>
    rw [← some.inj h]
    exact .refreshRoutes
  | resolve rawHost domains now =>
    rw [← some.inj h]
    exact .resolve rawHost domains now
  | read call =>
    unfold step at h
    dsimp only at h
    split at h
    next hcall =>
      rw [← some.inj h]
      exact .read _ _ hcall rfl
    next hcall =>
      rw [← some.inj h]
      exact .read _ _ hcall rfl
    next => cases h
  | resumed call now =>
    unfold step at h
    dsimp only at h
    split at h
    next split found hcall =>
      split at h
      next =>
        rw [← some.inj h]
        exact .ended
      next container hfound =>
        rw [← some.inj h]
        exact .goesOn _ _ hcall rfl
    next split container found hcall =>
      split at h
      next =>
        rw [← some.inj h]
        exact .ended
      next url htarget =>
        rw [← some.inj h]
        exact .store split container found url hcall htarget
    next => cases h

end Steps

/-! ## Stale targets -/

/-- The call has read of the containers before the last `refreshRoutes`. -/
def Overtaken (log : List Entry) (call : Nat) : Prop :=
  ∃ before after, log = before ++ .refreshed :: after ∧ .read call ∈ before

/-- A call that starts after a `refreshRoutes` returns no target that was computed by a call which
had read of the containers before it. -/
def NeverStale (log : List Entry) : Prop :=
  ∀ before middle call after, log = before ++ .refreshed :: (middle ++ .started call :: after) →
    ∀ source target, .returned call source target ∈ after → .read source ∉ before

/-- The call is about to store a target. -/
def State.Stores (s : State W) (call : Nat) : Prop :=
  ∃ split container found, s.calls call = some (.getContainerIp split container (some found)) ∧
    targetForContainer container found.join ≠ none

/-- No call stores a target after a `refreshRoutes` that came between its reads and now. -/
def StoresFresh (s : State W) : Event W → Prop
  | .resumed call _ => s.Stores call → ¬ Overtaken s.log call
  | _ => True

/-- No call reads before it starts. -/
def StartsFirst (log : List Entry) : Prop :=
  ∀ before after, log = before ++ .refreshed :: after →
    ∀ call, .read call ∈ before → .started call ∉ after

/-- The calls are numbered in the order of their starts, nothing in the cache is stale, and no stale
target was returned. -/
structure State.Sound (s : State W) : Prop where
  numbered : ∀ call, (.read call ∈ s.log ∨ .started call ∈ s.log ∨ s.calls call ≠ none) →
    call < s.next
  ordered : StartsFirst s.log
  cached : ∀ key entry, s.cache key = some entry → ¬ Overtaken s.log entry.source
  returned : NeverStale s.log

theorem not_overtaken_of_not_mem (h : .refreshed ∉ log) : ¬ Overtaken log call := by
  intro hovertaken
  obtain ⟨before, after, rfl, -⟩ := hovertaken
  exact h (mem_append_right _ mem_cons_self)

theorem not_overtaken_append {added : List Entry} (h : ¬ Overtaken log call)
    (hnew : .refreshed ∉ added) : ¬ Overtaken (log ++ added) call := by
  intro hovertaken
  obtain ⟨before, after, hsplit, hread⟩ := hovertaken
  obtain ⟨between, -, hlog⟩ | ⟨between, hadded, -⟩ := Transitions.append_eq_split hsplit
  · exact h ⟨before, between, hlog, hread⟩
  · rw [hadded] at hnew
    exact hnew (mem_append_right _ mem_cons_self)

/-- A returned target was computed by a call that had read nothing before the refreshes which the
returning call has started after. -/
theorem NeverStale.append (h : NeverStale log)
    (hentry : ∀ call source target, entry = .returned call source target →
      ∀ before middle after, log = before ++ .refreshed :: (middle ++ .started call :: after) →
        .read source ∉ before) : NeverStale (log ++ [entry]) := by
  intro before middle call after hsplit source target htarget
  obtain ⟨between, htail, hlog⟩ | ⟨between, hadded, -⟩ := Transitions.append_eq_split hsplit
  · obtain ⟨rest, hafter, hbetween⟩ | ⟨rest, hadded, -⟩ := Transitions.append_eq_split htail.symm
    · rw [hbetween] at hlog
      rw [hafter] at htarget
      cases mem_append.mp htarget with
      | inl hearlier => exact h before middle call rest hlog source target hearlier
      | inr hlast =>
        exact hentry call source target (mem_singleton.mp hlast).symm before middle rest hlog
    · have hlength := congrArg length hadded
      have hnil : after = [] := by
        apply eq_nil_of_length_eq_zero
        simp at hlength
        omega
      rw [hnil] at htarget
      cases htarget
  · have hlength := congrArg length hadded
    simp at hlength
    omega

theorem StartsFirst.append (h : StartsFirst log)
    (hentry : ∀ call, entry = .started call → .read call ∉ log) : StartsFirst (log ++ [entry]) := by
  intro before after hsplit call hread hstarted
  obtain ⟨between, rfl, hlog⟩ | ⟨between, hadded, -⟩ := Transitions.append_eq_split hsplit
  · cases mem_append.mp hstarted with
    | inl hearlier => exact h before between hlog call hread hearlier
    | inr hlast =>
      apply hentry call (mem_singleton.mp hlast).symm
      rw [hlog]
      exact mem_append_left _ hread
  · have hlength := congrArg length hadded
    have hnil : after = [] := by
      apply eq_nil_of_length_eq_zero
      simp at hlength
      omega
    rw [hnil] at hstarted
    cases hstarted

section Soundness

variable {deps : RouterDeps W} {s s' : State W} {event : Event W}

theorem sound_initial (world : W) : State.Sound { world } where
  numbered call h := by simp at h
  ordered before after h := by simp at h
  cached key entry h := nomatch h
  returned before middle call after h := by simp at h

namespace State.Sound

/-- Suspended calls change among those that have started. -/
theorem setCall (h : s.Sound) (suspended : Option Suspended)
    (hcall : suspended ≠ none → call < s.next) : (s.setCall call suspended).Sound where
  numbered other hother := by
    obtain hread | hstarted | hsome := hother
    · exact h.numbered other (.inl hread)
    · exact h.numbered other (.inr (.inl hstarted))
    · by_cases heq : other = call
      · rw [heq] at hsome ⊢
        apply hcall
        simpa [State.setCall] using hsome
      · apply h.numbered other
        simpa [State.setCall, heq] using Or.inr (Or.inr hsome)
  ordered := h.ordered
  cached := h.cached
  returned := h.returned

theorem numbered_record (h : s.Sound) {entry : Entry} {other : Nat}
    (hread : ∀ call, entry = .read call → call < s.next) (hstarted : ∀ call, entry ≠ .started call)
    (hother : .read other ∈ s.log ++ [entry] ∨ .started other ∈ s.log ++ [entry] ∨
      s.calls other ≠ none) : other < s.next := by
  obtain hother | hother | hsome := hother
  · obtain hearlier | hlast := mem_append.mp hother
    · exact h.numbered other (.inl hearlier)
    · exact hread other (mem_singleton.mp hlast).symm
  · obtain hearlier | hlast := mem_append.mp hother
    · exact h.numbered other (.inr (.inl hearlier))
    · exact absurd (mem_singleton.mp hlast).symm (hstarted other)
  · exact h.numbered other (.inr (.inr hsome))

theorem recordRead (h : s.Sound) (hcall : call < s.next) :
    (s.record (.read call)).Sound where
  numbered _ :=
    h.numbered_record (fun _ heq ↦ Entry.read.inj heq ▸ hcall) fun _ heq ↦ nomatch heq
  ordered := h.ordered.append fun _ heq ↦ nomatch heq
  cached key entry hentry := not_overtaken_append (h.cached key entry hentry) (by simp)
  returned := h.returned.append fun _ _ _ heq ↦ nomatch heq

theorem recordReturned (h : s.Sound) {source : Nat} {target : ResolvedTarget}
    (hfresh : ∀ before middle after,
      s.log = before ++ .refreshed :: (middle ++ .started call :: after) → .read source ∉ before) :
    (s.record (.returned call source target)).Sound where
  numbered _ := h.numbered_record (fun _ heq ↦ nomatch heq) fun _ heq ↦ nomatch heq
  ordered := h.ordered.append fun _ heq ↦ nomatch heq
  cached key entry hentry := not_overtaken_append (h.cached key entry hentry) (by simp)
  returned := by
    apply h.returned.append
    intro call' source' target' heq
    obtain ⟨rfl, rfl, -⟩ := Entry.returned.inj heq
    exact hfresh

theorem refreshRoutes (h : s.Sound) : s.refreshRoutes.Sound where
  numbered _ := h.numbered_record (fun _ heq ↦ nomatch heq) fun _ heq ↦ nomatch heq
  ordered := h.ordered.append fun _ heq ↦ nomatch heq
  cached _ _ hentry := nomatch hentry
  returned := h.returned.append fun _ _ _ heq ↦ nomatch heq

/-- The next call starts. -/
theorem start (h : s.Sound) :
    State.Sound { s with next := s.next + 1, log := s.log ++ [.started s.next] } where
  numbered other hother := by
    have hearlier : ∀ {call}, (.read call ∈ s.log ∨ .started call ∈ s.log ∨ s.calls call ≠ none) →
        call < s.next + 1 := fun hcall ↦ Nat.lt_succ_of_lt (h.numbered _ hcall)
    obtain hread | hstarted | hsome := hother
    · obtain hread | hlast := mem_append.mp hread
      · exact hearlier (.inl hread)
      · cases mem_singleton.mp hlast
    · obtain hstarted | hlast := mem_append.mp hstarted
      · exact hearlier (.inr (.inl hstarted))
      · rw [Entry.started.inj (mem_singleton.mp hlast)]
        exact Nat.lt_succ_self s.next
    · exact hearlier (.inr (.inr hsome))
  ordered := by
    apply h.ordered.append
    intro call heq hread
    have hlt := h.numbered call (.inl hread)
    have hnext := Entry.started.inj heq
    omega
  cached key entry hentry := not_overtaken_append (h.cached key entry hentry) (by simp)
  returned := h.returned.append fun _ _ _ heq ↦ nomatch heq

theorem resolve (h : s.Sound) (rawHost : Option String) (domains : List String) (now : Int) :
    (s.resolve deps rawHost domains now).Sound := by
  unfold State.resolve
  dsimp only
  split
  next => exact h.start
  next split _ =>
    split
    next cached hcached =>
      apply h.start.recordReturned
      intro before middle after hsplit hread
      have hentry := (filter_eq_some_iff.mp hcached).1
      exact h.start.cached split.key cached hentry ⟨before, _, hsplit, hread⟩
    next => exact h.start.setCall _ fun _ ↦ Nat.lt_succ_self s.next

/-- A call stores a target and returns it before any `refreshRoutes` has overtaken it. -/
theorem store (h : s.Sound) (split : SplitHost) (container : RoutedContainer) (url : String)
    (now : Int) (hfresh : ¬ Overtaken s.log call) :
    (s.store deps call split container url now).Sound := by
  have hreturned : ∀ before middle after,
      s.log = before ++ .refreshed :: (middle ++ .started call :: after) → .read call ∉ before := by
    intro before middle after hsplit hread
    exact hfresh ⟨before, _, hsplit, hread⟩
  let target : ResolvedTarget := ⟨url, container.id, container.mcpV2⟩
  have hrecorded : (s.record (.returned call call target)).Sound := h.recordReturned hreturned
  have hrest : ((s.record (.returned call call target)).setCall call none).Sound :=
    hrecorded.setCall none fun hne ↦ absurd rfl hne
  refine ⟨hrest.numbered, hrest.ordered, ?_, hrest.returned⟩
  intro key entry hentry
  by_cases hkey : key = split.key
  · subst hkey
    have heq : entry = ⟨target, now + deps.ttlMs, call⟩ := by
      simpa [State.store] using hentry.symm
    rw [heq]
    exact not_overtaken_append hfresh (by simp)
  · have hold : s.cache key = some entry := by simpa [State.store, hkey] using hentry
    exact hrest.cached key entry hold

theorem step (h : s.Sound) (hfresh : StoresFresh s event) (heffect : Effect deps s event s') :
    s'.Sound := by
  cases heffect with
  | happened world => exact ⟨h.numbered, h.ordered, h.cached, h.returned⟩
  | refreshRoutes => exact h.refreshRoutes
  | resolve rawHost domains now => exact h.resolve rawHost domains now
  | @read call before after hcall hsplit =>
    have hlt : call < s.next := h.numbered call (.inr (.inr (by simp [hcall])))
    exact (h.setCall (some after) fun _ ↦ hlt).recordRead hlt
  | ended => exact h.setCall none fun hne ↦ absurd rfl hne
  | @goesOn call now before after hcall hsplit =>
    exact h.setCall (some after) fun _ ↦ h.numbered call (.inr (.inr (by simp [hcall])))
  | store split container found url hcall htarget =>
    apply h.store
    apply hfresh
    exact ⟨split, container, found, hcall, by simp [htarget]⟩

end State.Sound

/-- Every suspended call is for a host that some request can name. -/
def State.Hosted (deps : RouterDeps W) (s : State W) : Prop :=
  ∀ call suspended, s.calls call = some suspended →
    ∃ rawHost domains, splitHost deps.toLowerCase rawHost domains = some suspended.split

theorem State.Hosted.setCall (h : s.Hosted deps) {suspended : Option Suspended}
    (hhost : ∀ goes, suspended = some goes →
      ∃ rawHost domains, splitHost deps.toLowerCase rawHost domains = some goes.split) :
    (s.setCall call suspended).Hosted deps := by
  intro other goes hgoes
  by_cases heq : other = call
  · subst heq
    exact hhost goes (by simpa [State.setCall] using hgoes)
  · exact h other goes (by simpa [State.setCall, heq] using hgoes)

theorem State.Hosted.step (h : s.Hosted deps) (heffect : Effect deps s event s') :
    s'.Hosted deps := by
  cases heffect with
  | happened world => exact h
  | refreshRoutes => exact h
  | resolve rawHost domains now =>
    have hstart : State.Hosted deps
        { s with next := s.next + 1, log := s.log ++ [.started s.next] } := h
    unfold State.resolve
    dsimp only
    split
    next => exact hstart
    next split hsplit =>
      split
      next => exact hstart
      next =>
        apply hstart.setCall
        intro goes hgoes
        rw [← some.inj hgoes]
        exact ⟨rawHost, domains, hsplit⟩
  | read before after hcall hsplit =>
    apply State.Hosted.setCall h
    intro goes hgoes
    rw [← some.inj hgoes, hsplit]
    exact h _ before hcall
  | ended => exact h.setCall fun _ hgoes ↦ nomatch hgoes
  | goesOn before after hcall hsplit =>
    apply h.setCall
    intro goes hgoes
    rw [← some.inj hgoes, hsplit]
    exact h _ before hcall
  | @store call =>
    have hended : (s.setCall call none).Hosted deps := h.setCall fun _ hgoes ↦ nomatch hgoes
    exact hended

/-- What a call that starts right after a target was stored returns. -/
theorem resolve_stored {split : SplitHost} {container : RoutedContainer} {url : String} {now : Int}
    {rawHost : Option String} {domains : List String}
    (hsplit : splitHost deps.toLowerCase rawHost domains = some split) :
    ((s.store deps call split container url now).resolve deps rawHost domains
        (now + deps.ttlMs - 1)).log =
      (s.log ++ [.returned call call ⟨url, container.id, container.mcpV2⟩]) ++ [.started s.next] ++
        [.returned s.next call ⟨url, container.id, container.mcpV2⟩] := by
  have hlive : ((some ⟨⟨url, container.id, container.mcpV2⟩, now + deps.ttlMs, call⟩ :
      Option CachedRoute).filter fun cached ↦ now + deps.ttlMs - 1 < cached.expires) =
      some ⟨⟨url, container.id, container.mcpV2⟩, now + deps.ttlMs, call⟩ :=
    filter_some_pos (by simp)
  unfold State.resolve
  simp only [hsplit, State.store, Function.update_self]
  rw [hlive]
  rfl

end Soundness

section Runs

variable {deps : RouterDeps W}

theorem sound_of_run {world : W} {events : List (Event W)} {s : State W}
    (h : Transitions.run (step deps) { world } events = some s)
    (hevents : Transitions.Throughout (step deps) StoresFresh { world } events) : s.Sound :=
  hevents.invariant (fun hfresh hstep hs ↦ State.Sound.step hs hfresh (step_effect hstep)) h
    (sound_initial world)

theorem hosted_of_run {world : W} {events : List (Event W)} {s : State W}
    (h : Transitions.run (step deps) { world } events = some s) : s.Hosted deps :=
  Transitions.run_invariant (fun _ hstep hs ↦ State.Hosted.step hs (step_effect hstep)) h
    (fun _ _ ↦ trivial) fun _ _ hcall ↦ nomatch hcall

end Runs

/-- At no time of a run does a call, or one that starts at that time, return a target computed from
reads older than a `refreshRoutes` it started after: exactly when no call of the run stores a target
after a `refreshRoutes` has come since its first read. -/
theorem neverStale_iff (deps : RouterDeps W) (world : W) (events : List (Event W)) (s : State W)
    (h : Transitions.run (step deps) { world } events = some s) :
    (∀ earlier, earlier <+: events → ∀ rawHost domains now s',
        Transitions.run (step deps) { world } (earlier ++ [.resolve rawHost domains now]) = some s' →
        NeverStale s'.log) ↔
      Transitions.Throughout (step deps) StoresFresh { world } events := by
  constructor
  · intro hnever earlier event later hsplit s' hrun
    cases event with
    | resumed call now =>
      intro hstores hovertaken
      obtain ⟨split, container, found, hcall, htarget⟩ := hstores
      obtain ⟨url, hurl⟩ := ne_none_iff_exists'.mp htarget
      obtain ⟨rawHost, domains, hhosted⟩ := hosted_of_run hrun call _ hcall
      have hhost : splitHost deps.toLowerCase rawHost domains = some split := hhosted
      have hstep : step deps s' (.resumed call now) =
          some (s'.store deps call split container url now) := by
        simp only [step, hcall, hurl]
      have hstored : Transitions.run (step deps) { world }
          ((earlier ++ [.resumed call now]) ++ [.resolve rawHost domains (now + deps.ttlMs - 1)]) =
          some ((s'.store deps call split container url now).resolve deps rawHost domains
            (now + deps.ttlMs - 1)) := by
        rw [append_assoc, Transitions.run_append, hrun, bind_some, singleton_append,
          Transitions.run, hstep]
        rfl
      have hstart : earlier ++ [.resumed call now] <+: events := ⟨later, by simp [hsplit]⟩
      obtain ⟨before, after, hlog, hread⟩ := hovertaken
      have hfresh := hnever _ hstart rawHost domains _ _ hstored
      rw [resolve_stored hhost, hlog] at hfresh
      let target : ResolvedTarget := ⟨url, container.id, container.mcpV2⟩
      exact hfresh before (after ++ [.returned call call target]) s'.next
        [.returned s'.next call target] (by simp [target]) call target mem_cons_self hread
    | _ => exact trivial
  · intro hfresh earlier hstart rawHost domains now s' hrun
    obtain ⟨later, rfl⟩ := hstart
    obtain ⟨between, hbetween, hrest⟩ := Transitions.run_split hrun
    have hsound : between.Sound := by
      apply sound_of_run hbetween
      intro before event after hsplit
      apply hfresh before event (after ++ later)
      rw [hsplit, append_assoc, cons_append]
    have hs' : between.resolve deps rawHost domains now = s' := Option.some.inj hrest
    rw [← hs']
    exact (hsound.resolve rawHost domains now).returned

end RouteCache

namespace Sample

open RouteCache

def routed : RoutedContainer where
  id := "c1"
  dockerContainerId := "d1"
  state := .running
  port := 3001
  hostPort := none
  mcpV2 := false

/-- There is one container or none, whatever the host. -/
def routerDeps : RouterDeps (Option RoutedContainer) where
  findByHost containers _ := some containers
  getContainerIp _ _ := some (some "172.18.0.5")
  toLowerCase := List.map lowerChar

def asked (now : Int) : Event (Option RoutedContainer) :=
  .resolve (some "whoami.privos.link") ["privos.link"] now

/-- The container is removed and the routes are refreshed while the first call is suspended. -/
def overtakenEvents : List (Event (Option RoutedContainer)) :=
  [asked 0, .read 0, .resumed 0 0, .read 0, .happened none, .refreshRoutes, .resumed 0 1]

/-- The same, but the first call returns before the container is removed. -/
def refreshedEvents : List (Event (Option RoutedContainer)) :=
  [asked 0, .read 0, .resumed 0 0, .read 0, .resumed 0 1, .happened none, .refreshRoutes]

def staleTarget : ResolvedTarget := ⟨"http://172.18.0.5:3001", "c1", false⟩

end Sample

namespace RouteCache

theorem neverStale_refreshed :
    ∃ s, Transitions.run (step Sample.routerDeps) { world := some Sample.routed }
        Sample.refreshedEvents = some s ∧
      ∀ rawHost domains now s',
        Transitions.run (step Sample.routerDeps) { world := some Sample.routed }
          (Sample.refreshedEvents ++ [.resolve rawHost domains now]) = some s' →
        NeverStale s'.log := by
  have hsome : (Transitions.run (step Sample.routerDeps) { world := some Sample.routed }
      Sample.refreshedEvents).isSome = true := rfl
  obtain ⟨s, hs⟩ := isSome_iff_exists.mp hsome
  have hfresh : Transitions.Throughout (step Sample.routerDeps) StoresFresh
      { world := some Sample.routed } Sample.refreshedEvents :=
    .cons trivial rfl (.cons trivial rfl
      (.cons (fun _ ↦ not_overtaken_of_not_mem (by decide)) rfl
        (.cons trivial rfl (.cons (fun _ ↦ not_overtaken_of_not_mem (by decide)) rfl
          (.cons trivial rfl (.cons trivial rfl .nil))))))
  have hnever := (neverStale_iff Sample.routerDeps _ Sample.refreshedEvents s hs).mpr hfresh
  exact ⟨s, hs, hnever _ (prefix_refl _)⟩

/-- The second call starts after the refresh and returns the container that was removed before. -/
theorem neverStale_overtaken :
    ∃ s, Transitions.run (step Sample.routerDeps) { world := some Sample.routed }
        (Sample.overtakenEvents ++ [Sample.asked 2]) = some s ∧ ¬ NeverStale s.log := by
  have hlog : (Transitions.run (step Sample.routerDeps) { world := some Sample.routed }
      (Sample.overtakenEvents ++ [Sample.asked 2])).map State.log =
        some ([.started 0, .read 0, .read 0] ++ .refreshed ::
          ([.returned 0 0 Sample.staleTarget] ++ .started 1 ::
            [.returned 1 0 Sample.staleTarget])) := rfl
  obtain ⟨s, hs, hlog⟩ := map_eq_some_iff.mp hlog
  refine ⟨s, hs, ?_⟩
  intro hnever
  exact hnever _ _ _ _ hlog 0 Sample.staleTarget mem_cons_self (by simp)

end RouteCache

end PrivosCluster.Routing
