import PrivosCluster.Tunnel.Replies

/-!
# What holds in every state of the client

A message begins at most one piece of work, and no two pieces belong to the same message. The
count `inFlight` is that of the injections which are not done; it never exceeds the limit.
-/

namespace PrivosCluster.Tunnel

open List Option

/-! ## The work in progress -/

def Work.isInject : Work → Bool
  | .inject _ => true
  | _ => false

/-- How many requests are being injected. -/
def TunnelState.injecting (s : TunnelState) : Nat := s.work.countP fun item ↦ item.2.isInject

/-- The arrival has happened. -/
def TunnelState.Seen (s : TunnelState) (arrival : Arrival) : Prop :=
  arrival.connection < s.connections ∧
    (arrival.connection + 1 = s.connections → arrival.number < s.arrived)

variable {done : Work} {begun : Option Work} {n : Nat} {state : ReadyState}

section

variable {work : List (Arrival × Work)} {arrival : Arrival}

theorem lookup_filter_ne (other : Arrival) :
    (work.filter (·.1 ≠ arrival)).lookup other =
      if other = arrival then none else work.lookup other := by
  induction work with
  | nil => simp
  | cons item work ih =>
    obtain ⟨key, value⟩ := item
    by_cases hkey : key = arrival
    · subst hkey
      rw [filter_cons_of_neg (by simp), ih]
      split
      · rfl
      next hother => rw [List.lookup_cons, beq_false_of_ne hother]
    · rw [filter_cons_of_pos (by simpa using hkey), List.lookup_cons, List.lookup_cons, ih]
      cases hother : other == key with
      | false => rfl
      | true =>
        have hne : other ≠ arrival := fun heq ↦ hkey ((eq_of_beq hother).symm.trans heq)
        exact (if_neg hne).symm

theorem mem_of_lookup (h : work.lookup arrival = some done) : (arrival, done) ∈ work := by
  obtain ⟨before, after, rfl, -⟩ := lookup_eq_some_iff.mp h
  simp

theorem lookup_eq_none_of_not_mem (h : ∀ item ∈ work, item.1 ≠ arrival) :
    work.lookup arrival = none := by
  rw [lookup_eq_none_iff]
  intro item hmem
  simpa using (h item hmem).symm

/-- What is done is taken out of the work once. -/
theorem countP_filter_ne (hdistinct : (work.map Prod.fst).Nodup)
    (h : work.lookup arrival = some done) (p : Arrival × Work → Bool) :
    (work.filter (·.1 ≠ arrival)).countP p + (if p (arrival, done) then 1 else 0) =
      work.countP p := by
  obtain ⟨before, after, rfl, hbefore⟩ := lookup_eq_some_iff.mp h
  have hafter : ∀ item ∈ after, item.1 ≠ arrival := by
    intro item hmem heq
    rw [map_append] at hdistinct
    have hnotin := (nodup_cons.mp (nodup_append.mp hdistinct).2.1).1
    exact hnotin (List.mem_map.mpr ⟨item, hmem, heq⟩)
  have hkeep (items : List (Arrival × Work)) (hitems : ∀ item ∈ items, item.1 ≠ arrival) :
      items.filter (·.1 ≠ arrival) = items :=
    filter_eq_self.mpr (by simpa using hitems)
  have hearlier : ∀ item ∈ before, item.1 ≠ arrival := by
    intro item hmem heq
    have hne := hbefore item hmem
    simp [heq] at hne
  rw [filter_append, hkeep before hearlier, filter_cons_of_neg (by simp),
    hkeep after hafter, countP_append, countP_append, countP_cons]
  omega

end

/-! ## What a message changes -/

section

variable {options : TunnelClientOptions} {s s' : TunnelState}

/-- A message begins some work or none, and an injection only below the limit. The connection may
be closed. -/
structure Receives (options : TunnelClientOptions) (s : TunnelState) (arrival : Arrival)
    (s' : TunnelState) (begun : Option Work) : Prop where
  work : s'.work = s.work ++ (begun.map fun work ↦ (arrival, work)).toList
  connections : s'.connections = s.connections
  arrived : s'.arrived = s.arrived
  socket : s'.client.socket = s.client.socket
  stopped : s'.client.stopped = s.client.stopped
  inFlight : s'.client.inFlight = s.client.inFlight + begun.toList.countP Work.isInject
  below : begun.any Work.isInject → s.client.inFlight < options.concurrencyLimit
  connection : s'.connection = s.connection ∨
    ∃ n, s.client.socket = some n ∧ s'.connection = some (n, .closing)

variable {arrival : Arrival}

theorem Receives.quiet (hwork : s'.work = s.work) (hconnections : s'.connections = s.connections)
    (harrived : s'.arrived = s.arrived) (hsocket : s'.client.socket = s.client.socket)
    (hstopped : s'.client.stopped = s.client.stopped)
    (hinFlight : s'.client.inFlight = s.client.inFlight)
    (hconnection : s'.connection = s.connection ∨
      ∃ n, s.client.socket = some n ∧ s'.connection = some (n, .closing)) :
    Receives options s arrival s' none where
  work := by simpa using hwork
  connections := hconnections
  arrived := harrived
  socket := hsocket
  stopped := hstopped
  inFlight := hinFlight
  below := by simp
  connection := hconnection

theorem receives_closeSocket {code : Nat} :
    Receives options s arrival (closeSocket s code).1 none := by
  unfold closeSocket
  split
  next socket hsocket =>
    split
    · exact .quiet rfl rfl rfl rfl rfl rfl (.inl rfl)
    · exact .quiet rfl rfl rfl rfl rfl rfl (.inr ⟨socket, hsocket, rfl⟩)
  · exact .quiet rfl rfl rfl rfl rfl rfl (.inl rfl)

theorem receives_handleReq (arrival : Arrival) (frame : ReqFrame) :
    ∃ begun, Receives options s arrival (handleReq options s arrival frame).1 begun := by
  unfold handleReq
  split
  · exact ⟨none, .quiet rfl rfl rfl rfl rfl rfl (.inl rfl)⟩
  · split
    · exact ⟨none, .quiet rfl rfl rfl rfl rfl rfl (.inl rfl)⟩
    next hlimit =>
      exact ⟨some (.inject frame), rfl, rfl, rfl, rfl, rfl, rfl, fun _ ↦ Nat.lt_of_not_le hlimit,
        .inl rfl⟩

theorem receives_finalizeStage (arrival : Arrival) (id : String) (artifact : StagedArtifact) :
    ∃ begun, Receives options s arrival (finalizeStage options s arrival id artifact).1 begun := by
  have hbegin (announced : Option String) : ∃ begun, Receives options s arrival
      (begin { s with client := { s.client with
          pendingStageReplies := Function.update s.client.pendingStageReplies id none } } arrival
          (.store id announced artifact)) begun :=
    ⟨some (.store id announced artifact), rfl, rfl, rfl, rfl, rfl, rfl, by simp [Work.isInject],
      .inl rfl⟩
  unfold finalizeStage
  dsimp only
  split
  · split
    · exact hbegin _
    · exact ⟨none, .quiet rfl rfl rfl rfl rfl rfl (.inl rfl)⟩
  · exact hbegin _

/-- The fields that the handling of a chunk passes on. -/
theorem Receives.of_client {client : TunnelClient}
    (h : Receives options { s with client } arrival s' begun)
    (hsocket : client.socket = s.client.socket) (hstopped : client.stopped = s.client.stopped)
    (hinFlight : client.inFlight = s.client.inFlight) : Receives options s arrival s' begun where
  work := h.work
  connections := h.connections
  arrived := h.arrived
  socket := h.socket.trans hsocket
  stopped := h.stopped.trans hstopped
  inFlight := by rw [h.inFlight, hinFlight]
  below := by rw [← hinFlight]; exact h.below
  connection := by rw [← hsocket]; exact h.connection

theorem receives_handleMessage (arrival : Arrival) (data : Data) (isBinary disk : Bool) :
    ∃ begun, Receives options s arrival
      (handleMessage options s arrival data isBinary disk).1 begun := by
  unfold handleMessage
  split
  · unfold finishChunk
    dsimp only
    split
    · exact ⟨none, receives_closeSocket.of_client rfl rfl rfl⟩
    · split
      · obtain ⟨begun, h⟩ := @receives_finalizeStage options _ arrival _ _
        exact ⟨begun, h.of_client rfl rfl rfl⟩
      · exact ⟨none, .quiet rfl rfl rfl rfl rfl rfl (.inl rfl)⟩
  · split
    · exact ⟨none, .quiet rfl rfl rfl rfl rfl rfl (.inl rfl)⟩
    · unfold handleFrame
      split
      · exact ⟨none, receives_closeSocket⟩
      · exact ⟨none, .quiet rfl rfl rfl rfl rfl rfl (.inl rfl)⟩
      · exact ⟨none, .quiet rfl rfl rfl rfl rfl rfl (.inl rfl)⟩
      · exact receives_handleReq arrival _
      · exact ⟨none, .quiet rfl rfl rfl rfl rfl rfl (.inl rfl)⟩
      next frame _ =>
        exact ⟨some (.forward frame), rfl, rfl, rfl, rfl, rfl, rfl, by simp [Work.isInject],
          .inl rfl⟩
      all_goals exact ⟨none, .quiet rfl rfl rfl rfl rfl rfl (.inl rfl)⟩

/-! ## What holds in every state -/

structure Sound (options : TunnelClientOptions) (s : TunnelState) : Prop where
  last : ∀ n state, s.connection = some (n, state) → n + 1 = s.connections
  socket : ∀ n, s.client.socket = some n → ∃ state, s.connection = some (n, state)
  current : ∀ n state, s.connection = some (n, state) → state ≠ .closing →
    s.client.socket = some n
  fresh : ∀ n, s.connection = some (n, .connecting) → s.arrived = 0
  seen : ∀ item ∈ s.work, s.Seen item.1
  distinct : (s.work.map Prod.fst).Nodup
  inFlight : s.client.inFlight = s.injecting
  bounded : s.client.inFlight ≤ options.concurrencyLimit

theorem sound_start (files : StateFiles) : Sound options { files } where
  last := nofun
  socket := nofun
  current := nofun
  fresh := nofun
  seen := nofun
  distinct := nodup_nil
  inFlight := rfl
  bounded := Nat.zero_le _

/-- The next message on the open connection has not been seen. -/
theorem Sound.not_seen_next (h : Sound options s) (hconnection : s.connection = some (n, state)) :
    ¬ s.Seen ⟨n, s.arrived⟩ := by
  intro hseen
  exact Nat.lt_irrefl _ (hseen.2 (h.last n state hconnection))

theorem Sound.lookup_next (h : Sound options s) (hconnection : s.connection = some (n, state)) :
    s.work.lookup ⟨n, s.arrived⟩ = none := by
  apply lookup_eq_none_of_not_mem
  intro item hmem heq
  apply h.not_seen_next hconnection
  rw [← heq]
  exact h.seen item hmem

theorem Sound.receives (h : Sound options s) (hconnection : s.connection = some (n, state))
    (hstate : state ≠ .connecting)
    (hreceives : Receives options { s with arrived := s.arrived + 1 } ⟨n, s.arrived⟩ s' begun) :
    Sound options s' := by
  have hclosing : ∀ m state', s'.connection = some (m, state') →
      (m = n ∧ state' = state) ∨ (m = n ∧ state' = .closing) := by
    intro m state' hm
    obtain hsame | ⟨socket, hsocket, hclosed⟩ := hreceives.connection
    · rw [hsame] at hm
      obtain ⟨rfl, rfl⟩ := Prod.mk.inj (some.inj (hconnection.symm.trans hm))
      exact .inl ⟨rfl, rfl⟩
    · obtain ⟨_, hsame⟩ := h.socket socket hsocket
      obtain ⟨rfl, -⟩ := Prod.mk.inj (some.inj (hconnection.symm.trans hsame))
      obtain ⟨rfl, rfl⟩ := Prod.mk.inj (some.inj (hclosed.symm.trans hm))
      exact .inr ⟨rfl, rfl⟩
  have hconnections : s'.connections = s.connections := hreceives.connections
  have harrived : s'.arrived = s.arrived + 1 := hreceives.arrived
  have hlast := h.last n state hconnection
  have hnext : s'.Seen ⟨n, s.arrived⟩ := by
    constructor
    · show n < s'.connections
      omega
    · intro _
      show s.arrived < s'.arrived
      omega
  have hwork : s'.work = s.work ++ (begun.map fun work ↦ (⟨n, s.arrived⟩, work)).toList :=
    hreceives.work
  constructor
  · intro m state' hm
    rcases hclosing m state' hm with ⟨rfl, -⟩ | ⟨rfl, -⟩ <;> omega
  · intro m hm
    rw [hreceives.socket] at hm
    obtain ⟨state', hstate'⟩ := h.socket m hm
    obtain hsame | ⟨socket, hsocket, hclosed⟩ := hreceives.connection
    · exact ⟨state', hsame.trans hstate'⟩
    · obtain rfl : m = socket := some.inj (hm.symm.trans hsocket)
      exact ⟨_, hclosed⟩
  · intro m state' hm hopen
    obtain ⟨rfl, rfl⟩ | ⟨-, rfl⟩ := hclosing m state' hm
    · exact hreceives.socket.trans (h.current m state' hconnection hopen)
    · exact absurd rfl hopen
  · intro m hm
    obtain ⟨-, hsame⟩ | ⟨-, hsame⟩ := hclosing m _ hm
    · exact absurd hsame.symm hstate
    · cases hsame
  · intro item hmem
    rw [hwork, mem_append] at hmem
    obtain hmem | hmem := hmem
    · have hseen := h.seen item hmem
      constructor
      · rw [hconnections]
        exact hseen.1
      · intro hcurrent
        rw [hconnections] at hcurrent
        have hearlier := hseen.2 hcurrent
        omega
    · obtain ⟨work, -, rfl⟩ := Option.map_eq_some_iff.mp (Option.mem_toList.mp hmem)
      exact hnext
  · rw [hwork, map_append]
    apply List.Nodup.append h.distinct
    · cases begun <;> simp
    · intro key hkey hnew
      obtain ⟨item, hmem, rfl⟩ := List.mem_map.mp hkey
      have hseen := h.seen item hmem
      cases begun with
      | none => simp at hnew
      | some work =>
        have heq : item.1 = ⟨n, s.arrived⟩ := by simpa using hnew
        exact h.not_seen_next hconnection (heq ▸ hseen)
  · have hcount := h.inFlight
    have hinFlight : s'.client.inFlight = s.client.inFlight + begun.toList.countP Work.isInject :=
      hreceives.inFlight
    rw [hinFlight, hcount, TunnelState.injecting, TunnelState.injecting, hwork]
    cases begun <;> simp
  · have hinFlight : s'.client.inFlight = s.client.inFlight + begun.toList.countP Work.isInject :=
      hreceives.inFlight
    have hbelow := hreceives.below
    have hbounded := h.bounded
    cases begun with
    | none => simpa [hinFlight] using hbounded
    | some work =>
      cases hinject : work.isInject with
      | false => simpa [hinFlight, hinject] using hbounded
      | true =>
        have hlt : s.client.inFlight < options.concurrencyLimit := hbelow (by simpa using hinject)
        simp only [Option.toList_some, countP_singleton, hinject, if_true] at hinFlight
        omega

/-- Work that is done; only an injection is counted. -/
theorem Sound.finish (h : Sound options s) (client : TunnelClient)
    (hwork : s.workOf arrival = some done) (hsocket : client.socket = s.client.socket)
    (hinFlight : client.inFlight = s.client.inFlight - if done.isInject then 1 else 0) :
    Sound options { s.finish arrival with client } := by
  have hcount := countP_filter_ne h.distinct hwork fun item ↦ item.2.isInject
  have hinjecting := h.inFlight
  have hbounded := h.bounded
  unfold TunnelState.injecting at hinjecting
  constructor
  · exact h.last
  · intro n hn
    exact h.socket n (hsocket ▸ hn)
  · intro n state hn hopen
    exact hsocket.trans (h.current n state hn hopen)
  · exact h.fresh
  · intro item hmem
    exact h.seen item (mem_filter.mp hmem).1
  · exact (filter_sublist.map Prod.fst).nodup h.distinct
  · show client.inFlight = (s.work.filter _).countP _
    cases hinject : done.isInject <;> simp only [hinject, if_true] at hcount hinFlight <;> omega
  · show client.inFlight ≤ _
    omega

theorem Sound.stop (h : Sound options s) : Sound options
    { (closeSocket s 1000).1 with
      client := { cleanupAllStageSessions s.client with stopped := true, socket := none } } := by
  unfold closeSocket
  split
  next socket hsocket =>
    obtain ⟨state, hconnection⟩ := h.socket socket hsocket
    have hlast := h.last socket state hconnection
    split
    next hclosing =>
      refine ⟨h.last, nofun, ?_, h.fresh, h.seen, h.distinct, h.inFlight, h.bounded⟩
      intro n state' hn hopen
      obtain ⟨-, rfl⟩ := Prod.mk.inj (some.inj (hclosing.symm.trans hn))
      exact absurd rfl hopen
    · refine ⟨?_, nofun, ?_, ?_, h.seen, h.distinct, h.inFlight, h.bounded⟩
      · intro n state' hn
        obtain ⟨rfl, -⟩ := Prod.mk.inj (some.inj hn)
        exact hlast
      · intro n state' hn hopen
        obtain ⟨-, rfl⟩ := Prod.mk.inj (some.inj hn)
        exact absurd rfl hopen
      · intro n hn
        cases (Prod.mk.inj (some.inj hn)).2
  next hsocket =>
    refine ⟨h.last, nofun, ?_, h.fresh, h.seen, h.distinct, h.inFlight, h.bounded⟩
    intro n state hn hopen
    have hcurrent := h.current n state hn hopen
    rw [hsocket] at hcurrent
    cases hcurrent

theorem Sound.connect (h : Sound options s) : Sound options { s with
    client := { s.client with socket := some s.connections }
    connection := some (s.connections, .connecting)
    connections := s.connections + 1
    arrived := 0 } := by
  constructor
  · intro n state hn
    obtain ⟨rfl, -⟩ := Prod.mk.inj (some.inj hn)
    rfl
  · intro n hn
    exact ⟨.connecting, by rw [← some.inj hn]⟩
  · intro n state hn _
    exact congrArg some (Prod.mk.inj (some.inj hn)).1
  · intro _ _
    rfl
  · intro item hmem
    have hseen := (h.seen item hmem).1
    constructor
    · show item.1.connection < s.connections + 1
      omega
    · intro hcurrent
      replace hcurrent : item.1.connection + 1 = s.connections + 1 := hcurrent
      omega
  · exact h.distinct
  · exact h.inFlight
  · exact h.bounded

theorem Sound.opened (h : Sound options s) (hconnecting : s.connection = some (n, .connecting)) :
    Sound options { s with connection := some (n, .open) } := by
  have hcurrent := h.current n _ hconnecting nofun
  constructor
  · intro m state hm
    obtain ⟨rfl, -⟩ := Prod.mk.inj (some.inj hm)
    exact h.last _ _ hconnecting
  · intro m hm
    exact ⟨.open, by rw [some.inj (hm.symm.trans hcurrent)]⟩
  · intro m state hm _
    obtain ⟨rfl, -⟩ := Prod.mk.inj (some.inj hm)
    exact hcurrent
  · intro m hm
    cases (Prod.mk.inj (some.inj hm)).2
  · exact h.seen
  · exact h.distinct
  · exact h.inFlight
  · exact h.bounded

theorem Sound.step (h : Sound options s) {event : Event} {outputs : List Output}
    (hstep : step options s event = some (s', outputs)) : Sound options s' := by
  cases transition hstep with
  | connect => exact h.connect
  | opened nodeIdentity hconnecting => exact h.opened hconnecting
  | message data isBinary disk hconnected hready =>
    obtain ⟨begun, hreceives⟩ := receives_handleMessage _ data isBinary disk
    exact h.receives hconnected hready hreceives
  | closed => exact ⟨nofun, nofun, nofun, nofun, h.seen, h.distinct, h.inFlight, h.bounded⟩
  | injected result hwork => exact h.finish _ hwork rfl rfl
  | forwarded result hwork => exact h.finish s.client hwork rfl rfl
  | stored result hwork => exact h.finish s.client hwork rfl rfl
  | tokenWritten =>
    exact ⟨h.last, h.socket, h.current, h.fresh, h.seen, h.distinct, h.inFlight, h.bounded⟩
  | stopped => exact h
  | stop => exact h.stop

theorem sound_run {files : StateFiles} {steps : List (Event × List Output)}
    (run : Run options { files } steps s) : Sound options s := by
  induction run with
  | start => exact sound_start files
  | step _ happens ih => exact ih.step happens

end

end PrivosCluster.Tunnel
