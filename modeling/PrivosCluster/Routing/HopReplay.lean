import PrivosCluster.Admission.SingleUse
import PrivosCluster.Routing.Routability
import Mathlib.Tactic.Linarith

/-!
# Replayed hops

The runtime listener accepts a hop that is dated at most half a minute from its clock, and remembers
the nonce for a minute. A hop that was dated a full half minute ahead is still acceptable at the
instant at which its nonce is forgotten.
-/

namespace PrivosCluster.Routing

open List

/-- A hop that reaches the listener; the listener is the one of that moment, but for its cache. -/
structure Delivery where
  now : Time
  listener : RuntimeListener
  req : HttpRequest

/-- What makes two hops the same one. -/
structure SignedHop where
  signature : String
  ts : Rat
  nonce : String
deriving DecidableEq

def hopOf (platform : Platform) (req : HttpRequest) : Option SignedHop :=
  (readSignatureHeaders platform req).map fun parsed ↦ ⟨parsed.signature, parsed.ts, parsed.nonce⟩

def Delivery.authenticate (platform : Platform) (cache : ReplayCache) (delivery : Delivery) :
    Except (Nat × String) String × ReplayCache :=
  { delivery.listener with replayCache := cache }.authenticate platform delivery.now delivery.req

/-- The deliveries in order over one cache, each with whether it was authenticated. -/
def authenticateEach (platform : Platform) : ReplayCache → List Delivery → List (Delivery × Bool)
  | _, [] => []
  | cache, delivery :: rest =>
    let (authenticated, cache) := delivery.authenticate platform cache
    (delivery, authenticated.isOk) :: authenticateEach platform cache rest

/-- The hops that were authenticated, in order. -/
def authenticatedHops (platform : Platform) (cache : ReplayCache) (deliveries : List Delivery) :
    List SignedHop :=
  ((authenticateEach platform cache deliveries).filter Prod.snd).filterMap
    fun served ↦ hopOf platform served.1.req

/-- The same hop is delivered at the first and at the last instant at which its date is accepted. -/
def AtBothEnds (platform : Platform) (first second : Delivery) : Prop :=
  ∃ hop, hopOf platform first.req = some hop ∧ hopOf platform second.req = some hop ∧
    (first.now : Rat) = hop.ts - signatureTsSkewMs ∧ (second.now : Rat) = hop.ts + signatureTsSkewMs

section Authentication

variable {platform : Platform}

theorem checkAndRemember_eq (cache : ReplayCache) (nonce : String) (now : Time) :
    cache.checkAndRemember nonce now =
      SingleUse.check (fun (now : Time) (expiresAt : Int) ↦ decide (now < expiresAt)) cache nonce
        now (now + ReplayCache.ttlMs) := rfl

/-- A refusal before the replay check leaves the cache as it is. -/
theorem authenticate_cases (cache : ReplayCache) (delivery : Delivery) :
    ((delivery.authenticate platform cache).1.isOk = false ∧
        (delivery.authenticate platform cache).2 = cache) ∨
      ∃ parsed, readSignatureHeaders platform delivery.req = some parsed ∧
        |(delivery.now : Rat) - parsed.ts| ≤ signatureTsSkewMs ∧
        (delivery.authenticate platform cache).1.isOk =
          (cache.checkAndRemember parsed.nonce delivery.now).1 ∧
        (delivery.authenticate platform cache).2 =
          (cache.checkAndRemember parsed.nonce delivery.now).2 := by
  unfold Delivery.authenticate RuntimeListener.authenticate
  cases hread : readSignatureHeaders platform delivery.req with
  | none => exact .inl ⟨rfl, rfl⟩
  | some parsed =>
    dsimp only
    split
    · exact .inl ⟨rfl, rfl⟩
    split
    · exact .inl ⟨rfl, rfl⟩
    next hskew =>
      cases delivery.listener.tables.findSigningKey parsed.kid with
      | none => exact .inl ⟨rfl, rfl⟩
      | some key =>
        dsimp only
        split
        · right
          refine ⟨parsed, rfl, not_lt.mp hskew, ?_⟩
          cases cache.checkAndRemember parsed.nonce delivery.now with
          | mk fresh left => cases fresh <;> exact ⟨rfl, rfl⟩
        · exact .inl ⟨rfl, rfl⟩

end Authentication

/-! ## The listener as a guard -/

/-- Nonces are held for a minute from the delivery that was authenticated. -/
def hopGuard (platform : Platform) :
    SingleUse.Guard ReplayCache Delivery (Option String) Int Time where
  step cache delivery authenticated cache' :=
    (delivery.authenticate platform cache).1.isOk = authenticated ∧
      (delivery.authenticate platform cache).2 = cache'
  time := Delivery.now
  key delivery := (hopOf platform delivery.req).map SignedHop.nonce
  deadline delivery := delivery.now + ReplayCache.ttlMs
  held cache nonce expiresAt := ∃ n, nonce = some n ∧ (n, expiresAt) ∈ cache
  due now expiresAt := expiresAt ≤ now

theorem hopGuard_lawful (platform : Platform) : (hopGuard platform).Lawful where
  due_mono := fun hle hdue ↦ le_trans hdue hle
  keeps := by
    rintro cache cache' delivery authenticated nonce expiresAt ⟨-, hcache⟩ ⟨n, hn, hmem⟩ hdue
    refine ⟨n, hn, ?_⟩
    subst hcache
    rcases authenticate_cases cache delivery with
      ⟨-, hkept⟩ | ⟨parsed, -, -, -, hkept⟩
    · rw [hkept]
      exact hmem
    · rw [hkept, checkAndRemember_eq]
      have hlt : delivery.now < expiresAt := not_le.mp hdue
      apply SingleUse.mem_check hmem
      simpa using hlt
  holds := by
    rintro cache cache' delivery ⟨hok, hcache⟩
    subst hcache
    rcases authenticate_cases cache delivery with
      ⟨hrefused, -⟩ | ⟨parsed, hread, -, hfresh, hkept⟩
    · rw [hrefused] at hok
      cases hok
    · refine ⟨parsed.nonce, by simp [hopGuard, hopOf, hread], ?_⟩
      rw [hkept, checkAndRemember_eq]
      apply SingleUse.mem_check_of_admitted
      rw [← checkAndRemember_eq, ← hfresh, hok]
  refuses := by
    rintro cache cache' delivery expiresAt ⟨hok, -⟩ ⟨n, hn, hmem⟩
    rcases authenticate_cases cache delivery with
      ⟨hrefused, -⟩ | ⟨parsed, hread, -, hfresh, -⟩
    · rw [hrefused] at hok
      cases hok
    · have hnonce : parsed.nonce = n := by simpa [hopGuard, hopOf, hread] using hn
      rw [hfresh, hnonce, checkAndRemember_eq] at hok
      have hexpired := SingleUse.not_alive_of_admitted hok hmem
      simpa [hopGuard] using hexpired

section Run

variable {platform : Platform}

theorem run_authenticateEach (cache : ReplayCache) (deliveries : List Delivery) :
    ∃ cache', (hopGuard platform).Run cache (authenticateEach platform cache deliveries) cache' := by
  induction deliveries generalizing cache with
  | nil => exact ⟨cache, .start⟩
  | cons delivery rest ih =>
    obtain ⟨cache', hrest⟩ := ih (delivery.authenticate platform cache).2
    exact ⟨cache', .head ⟨rfl, rfl⟩ hrest⟩

theorem map_fst_authenticateEach (platform : Platform) (cache : ReplayCache) (deliveries : List Delivery) :
    (authenticateEach platform cache deliveries).map Prod.fst = deliveries := by
  induction deliveries generalizing cache with
  | nil => rfl
  | cons delivery rest ih =>
    simp only [authenticateEach, map_cons]
    rw [ih]

/-- What is authenticated is dated within the skew. -/
theorem dated_of_authenticated (platform : Platform) (cache : ReplayCache) (deliveries : List Delivery) :
    ∀ served ∈ authenticateEach platform cache deliveries, served.2 →
      ∀ hop, hopOf platform served.1.req = some hop →
        |(served.1.now : Rat) - hop.ts| ≤ signatureTsSkewMs := by
  induction deliveries generalizing cache with
  | nil => exact fun served hserved ↦ nomatch hserved
  | cons delivery rest ih =>
    intro served hserved hok hop hhop
    obtain heq | hserved := mem_cons.mp hserved
    · subst heq
      have hok' : (delivery.authenticate platform cache).1.isOk := hok
      rcases authenticate_cases cache delivery with
        ⟨hrefused, -⟩ | ⟨parsed, hread, hskew, -, -⟩
      · rw [hrefused] at hok'
        cases hok'
      · have hhop' : hop = ⟨parsed.signature, parsed.ts, parsed.nonce⟩ := by
          simpa [hopOf, hread, eq_comm] using hhop
        rw [hhop']
        exact hskew
    · exact ih _ served hserved hok hop hhop

/-- Two deliveries of one hop that are both within the skew lie a minute apart at most, and exactly
a minute only from one end of the window to the other. -/
theorem atBothEnds_of_due {first second : Delivery} {hop : SignedHop}
    (hfirst : hopOf platform first.req = some hop)
    (hsecond : hopOf platform second.req = some hop)
    (hskew : |(first.now : Rat) - hop.ts| ≤ signatureTsSkewMs)
    (hskew' : |(second.now : Rat) - hop.ts| ≤ signatureTsSkewMs)
    (hdue : first.now + ReplayCache.ttlMs ≤ second.now) : AtBothEnds platform first second := by
  have hearliest := (abs_le.mp hskew).1
  have hlatest := (abs_le.mp hskew').2
  have hminute : (first.now : Rat) + 60000 ≤ second.now := by
    exact_mod_cast hdue
  unfold signatureTsSkewMs at hearliest hlatest
  refine ⟨hop, hfirst, hsecond, ?_, ?_⟩
  · unfold signatureTsSkewMs
    linarith
  · unfold signatureTsSkewMs
    linarith

/-- Over any run with a clock that does not go back, no hop is authenticated twice, unless it is
delivered at both ends of the window in which its date is accepted. -/
theorem hops_authenticated_once (platform : Platform) (cache : ReplayCache)
    (deliveries : List Delivery)
    (hclock : deliveries.Pairwise fun first second ↦ first.now ≤ second.now)
    (hends : deliveries.Pairwise fun first second ↦ ¬ AtBothEnds platform first second) :
    (authenticatedHops platform cache deliveries).Nodup := by
  obtain ⟨cache', hrun⟩ := run_authenticateEach cache deliveries
  have hmap := map_fst_authenticateEach platform cache deliveries
  rw [← hmap] at hclock hends
  have hordered : (hopGuard platform).Ordered (authenticateEach platform cache deliveries) := by
    rw [pairwise_map] at hclock
    exact hclock
  have hdue := hrun.due_of_readmitted (hopGuard_lawful platform) hordered
  have hdated := dated_of_authenticated platform cache deliveries
  have happart := (hdue.and (pairwise_map.mp hends)).imp_of_mem
    (S := fun first second ↦ first.2 → second.2 →
      ∀ hop, hopOf platform first.1.req = some hop → hopOf platform second.1.req ≠ some hop) ?_
  · apply pairwise_filterMap.mpr
    apply pairwise_filter.mpr
    apply happart.imp
    intro first second hne hok hok' hop hhop hop' hhop' heq
    exact hne hok hok' hop hhop (heq ▸ hhop')
  · intro first second hfirst hsecond hboth hok hok' hop hhop hhop'
    have hkey : (hopGuard platform).key first.1 = (hopGuard platform).key second.1 := by
      simp [hopGuard, hhop, hhop']
    apply hboth.2
    exact atBothEnds_of_due hhop hhop' (hdated first hfirst hok hop hhop)
      (hdated second hsecond hok' hop hhop') (hboth.1 hok hok' hkey)

end Run

namespace Sample

/-- Half a minute past the instant at which the hop is first delivered. -/
def date : Nat := 1700000030000

def datedPlatform : Platform :=
  { platform with
    number := fun s ↦ if s = "1700000030000" then some date else none
    numberText := fun _ ↦ "1700000030000" }

def datedRequest : HttpRequest :=
  forwardedRequest (ingressListener sharedNode) datedPlatform { host := some "notes.apps.test" }
    "192.0.2.1" ("nonce", date) "10.88.0.3"

def delivered (now : Time) : Delivery := ⟨now, servingListener .mcpV3, datedRequest⟩

def datedHop : SignedHop where
  signature := jwk.x ++ ":" ++ canonicalSigningString datedPlatform
    { targetNodeId := "10.88.0.3", nonce := "nonce", ts := date, method := "GET",
      host := "notes.apps.test", requestTarget := "/", clientIp := "192.0.2.1" }
  ts := date
  nonce := "nonce"

theorem hopOf_datedRequest : hopOf datedPlatform datedRequest = some datedHop := by decide +kernel

end Sample

/-- A millisecond before its nonce is forgotten, the hop is refused. -/
theorem hop_refused_within_minute :
    (authenticatedHops Sample.datedPlatform []
      [Sample.delivered 1700000000000, Sample.delivered 1700000059999]).Nodup := by
  apply hops_authenticated_once
  · decide
  · apply pairwise_pair.mpr
    intro hends
    obtain ⟨hop, -, hhop, -, hlast⟩ := hends
    have heq : hop = Sample.datedHop := Option.some.inj (hhop.symm.trans Sample.hopOf_datedRequest)
    rw [heq] at hlast
    have hlast' : (1700000059999 : Rat) = 1700000030000 + 30000 := hlast
    norm_num at hlast'

/-- A hop that is dated half a minute ahead is authenticated on arrival and a minute later. -/
theorem hop_authenticated_twice :
    [Sample.delivered 1700000000000, Sample.delivered 1700000060000].Pairwise
        (fun first second ↦ first.now ≤ second.now) ∧
      ¬ (authenticatedHops Sample.datedPlatform []
        [Sample.delivered 1700000000000, Sample.delivered 1700000060000]).Nodup := by
  decide +kernel

end PrivosCluster.Routing
