import PrivosCluster.Tunnel.Soundness

/-!
# Requests of one connection

Every request that the client reads is refused at once or injected, and what is injected is
answered when it is done. The reply is sent unless it does not fit into a frame.
-/

namespace PrivosCluster.Tunnel

open List Option

/-- The message that an event is about: the one that arrives, or the one whose work is done. -/
def Event.subject (s : TunnelState) : Event → Option Arrival
  | .message _ _ _ => s.connection.map fun current ↦ ⟨current.1, s.arrived⟩
  | .injected arrival _ => some arrival
  | .forwarded arrival _ => some arrival
  | .stored arrival _ => some arrival
  | _ => none

variable {state : ReadyState} {P : TunnelState → Event → Prop} {result : Except Unit Injected}

section

variable {options : TunnelClientOptions} {s s' : TunnelState} {event : Event}
  {outputs : List Output}

/-! ## One event -/

/-- An event changes the work of its subject only, and only the subject is answered. -/
structure Advances (s : TunnelState) (event : Event) (s' : TunnelState) (outputs : List Output) :
    Prop where
  workOf : ∀ k, event.subject s ≠ some k → s'.workOf k = s.workOf k
  replies : ∀ n reply k, Output.send n (.res reply) (some k) ∈ outputs → event.subject s = some k
  seen : ∀ k, s.Seen k → s'.Seen k
  subject : ∀ k, event.subject s = some k → s'.Seen k
  connection : ∀ n, s'.connection = some (n, .open) →
    s.connection = some (n, .open) ∨ s.connection = some (n, .connecting)

theorem Advances.unrelated (hsubject : event.subject s = none) (hwork : s'.work = s.work)
    (hreplies : ∀ n reply k, Output.send n (.res reply) (some k) ∉ outputs)
    (hconnections : s'.connections = s.connections) (harrived : s'.arrived = s.arrived)
    (hconnection : ∀ n, s'.connection = some (n, .open) →
      s.connection = some (n, .open) ∨ s.connection = some (n, .connecting)) :
    Advances s event s' outputs where
  workOf := fun k _ ↦ by rw [TunnelState.workOf, TunnelState.workOf, hwork]
  replies := fun n reply k hsend ↦ absurd hsend (hreplies n reply k)
  seen := fun k hseen ↦ by rwa [TunnelState.Seen, hconnections, harrived]
  subject := fun k hk ↦ by rw [hsubject] at hk; cases hk
  connection := hconnection

/-- Work that is done is answered on the current socket. -/
theorem Advances.finish (h : Sound options s) {arrival : Arrival} {done : Work}
    (client : TunnelClient) (hsubject : event.subject s = some arrival)
    (hwork : s.workOf arrival = some done)
    (hreplies : ∀ n reply k, Output.send n (.res reply) (some k) ∈ outputs → k = arrival) :
    Advances s event { s.finish arrival with client } outputs where
  workOf := by
    intro k hk
    rw [hsubject] at hk
    show (s.work.filter _).lookup k = s.work.lookup k
    rw [lookup_filter_ne, if_neg fun heq ↦ hk (congrArg some heq.symm)]
  replies := fun n reply k hsend ↦ by rw [hreplies n reply k hsend, hsubject]
  seen := fun _ hseen ↦ hseen
  subject := by
    intro k hk
    obtain rfl := some.inj (hsubject.symm.trans hk)
    exact h.seen _ (mem_of_lookup hwork)
  connection := fun _ hopen ↦ .inl hopen

theorem Advances.receives (h : Sound options s) {n : Nat}
    (hconnection : s.connection = some (n, state))
    (hsubject : event.subject s = some ⟨n, s.arrived⟩) {begun : Option Work}
    (hreceives : Receives options { s with arrived := s.arrived + 1 } ⟨n, s.arrived⟩ s' begun)
    (hreplies : Immediate { s with arrived := s.arrived + 1 } ⟨n, s.arrived⟩ outputs) :
    Advances s event s' outputs where
  workOf := by
    intro k hk
    have hne : k ≠ ⟨n, s.arrived⟩ := fun heq ↦ hk (heq ▸ hsubject)
    have hwork : s'.work = s.work ++ (begun.map fun work ↦ (⟨n, s.arrived⟩, work)).toList :=
      hreceives.work
    rw [TunnelState.workOf, TunnelState.workOf, hwork, lookup_append]
    cases begun with
    | none => simp
    | some work => simp [List.lookup_cons, beq_false_of_ne hne]
  replies := fun m reply k hsend ↦ by rw [(hreplies m reply k hsend).1, hsubject]
  seen := by
    intro k hseen
    have hconnections : s'.connections = s.connections := hreceives.connections
    have harrived : s'.arrived = s.arrived + 1 := hreceives.arrived
    rw [TunnelState.Seen, hconnections, harrived]
    exact ⟨hseen.1, fun hcurrent ↦ Nat.lt_succ_of_lt (hseen.2 hcurrent)⟩
  subject := by
    intro k hk
    obtain rfl := some.inj (hsubject.symm.trans hk)
    have hconnections : s'.connections = s.connections := hreceives.connections
    have harrived : s'.arrived = s.arrived + 1 := hreceives.arrived
    have hlast := h.last n state hconnection
    rw [TunnelState.Seen, hconnections, harrived]
    constructor
    · show n < s.connections
      omega
    · exact fun _ ↦ Nat.lt_succ_self _
  connection := by
    intro m hopen
    obtain hsame | ⟨socket, -, hclosed⟩ := hreceives.connection
    · exact .inl (hsame ▸ hopen)
    · cases hclosed.symm.trans hopen

theorem Advances.connect : Advances s .connect { s with
    client := { s.client with socket := some s.connections }
    connection := some (s.connections, .connecting)
    connections := s.connections + 1
    arrived := 0 } [] where
  workOf := fun _ _ ↦ rfl
  replies := nofun
  seen := by
    intro k hseen
    constructor
    · exact Nat.lt_succ_of_lt hseen.1
    · intro hcurrent
      have hlt := hseen.1
      replace hcurrent : k.connection + 1 = s.connections + 1 := hcurrent
      omega
  subject := nofun
  connection := by
    intro n hopen
    cases (Prod.mk.inj (some.inj hopen)).2

theorem advances (h : Sound options s) (hstep : step options s event = some (s', outputs)) :
    Advances s event s' outputs := by
  cases transition hstep with
  | connect => exact .connect
  | opened nodeIdentity hconnecting =>
    refine .unrelated rfl rfl ?_ rfl rfl ?_
    · intro m reply k hsend
      obtain ⟨_, -, -, hout⟩ := mem_sendFrame.mp hsend
      injection hout with _ _ hreply
      cases hreply
    · intro m hopen
      obtain ⟨rfl, -⟩ := Prod.mk.inj (some.inj hopen)
      exact .inr hconnecting
  | message data isBinary disk hconnected hready =>
    obtain ⟨begun, hreceives⟩ := receives_handleMessage _ data isBinary disk
    exact .receives h hconnected (by simp [Event.subject, hconnected]) hreceives
      immediate_handleMessage
  | closed => exact .unrelated rfl rfl nofun rfl rfl nofun
  | injected result hwork =>
    exact .finish h _ rfl hwork fun _ _ _ hsend ↦ (immediate_sendFrame rfl _ _ _ hsend).1
  | forwarded result hwork =>
    exact .finish h s.client rfl hwork fun _ _ _ hsend ↦ (immediate_sendFrame rfl _ _ _ hsend).1
  | stored result hwork =>
    apply Advances.finish h s.client rfl hwork
    intro n reply k hsend
    split at hsend
    · exact (immediate_sendFrame rfl _ _ _ hsend).1
    · simp at hsend
  | tokenWritten => exact .unrelated rfl rfl nofun rfl rfl fun _ ↦ .inl
  | stopped => exact .unrelated rfl rfl nofun rfl rfl fun _ ↦ .inl
  | stop =>
    have hclose : Receives options s ⟨0, 0⟩ (closeSocket s 1000).1 none := receives_closeSocket
    have hwork : (closeSocket s 1000).1.work = s.work := by simpa using hclose.work
    refine .unrelated rfl hwork (fun _ _ _ ↦ not_mem_closeSocket) hclose.connections
      hclose.arrived ?_
    intro n hopen
    obtain hsame | ⟨socket, -, hclosed⟩ := hclose.connection
    · exact .inl (hsame ▸ hopen)
    · cases hclosed.symm.trans hopen

/-! ## Requests and their replies -/

/-- The message is read as a request that does not announce an artifact. -/
def Reads (options : TunnelClientOptions) (k : Arrival) (frame : ReqFrame) (s : TunnelState)
    (event : Event) : Prop :=
  ∃ data disk, event = .message data false disk ∧ event.subject s = some k ∧
    s.client.pendingChunk = none ∧
    decodeFrame options.platform (data.text options.platform) = some (.req frame) ∧
    stageControlDigest options.platform frame = none

/-- The client makes a reply to the request: it refuses the request at the limit, or the injection
is done. -/
def Replies (options : TunnelClientOptions) (k : Arrival) (frame : ReqFrame) (reply : ResFrame)
    (s : TunnelState) (event : Event) : Prop :=
  (Reads options k frame s event ∧ options.concurrencyLimit ≤ s.client.inFlight ∧
    reply = tooManyRequests frame.id) ∨
  ∃ result, event = .injected k result ∧ s.workOf k = some (.inject frame) ∧
    reply = reqReply options.platform frame result

/-- Something holds of one of the events of a run and of the state before it. -/
def Occurs (options : TunnelClientOptions) (files : StateFiles) (P : TunnelState → Event → Prop)
    (steps : List (Event × List Output)) : Prop :=
  ∃ before event outputs after s, steps = before ++ (event, outputs) :: after ∧
    Run options { files } before s ∧ P s event

/-- A reply with the id to the message, on the connection of the message. -/
def isReply (k : Arrival) (id : String) : Output → Bool
  | .send n (.res reply) (some arrival) => n = k.connection ∧ arrival = k ∧ reply.id = id
  | _ => false

/-- How many such replies have been sent. -/
def repliesTo (k : Arrival) (id : String) (steps : List (Event × List Output)) : Nat :=
  (steps.flatMap Prod.snd).countP (isReply k id)

variable {files : StateFiles} {steps : List (Event × List Output)} {k : Arrival} {frame : ReqFrame}
  {reply : ResFrame} {id : String}

theorem not_occurs_nil : ¬ Occurs options files P [] := by
  rintro ⟨before, event, outputs, after, s, hsteps, -⟩
  simp at hsteps

theorem occurs_snoc_iff (run : Run options { files } steps s) :
    Occurs options files P (steps ++ [(event, outputs)]) ↔
      Occurs options files P steps ∨ P s event := by
  constructor
  · rintro ⟨before, event', outputs', after, s₁, hsteps, hbefore, hP⟩
    obtain rfl | ⟨rest, last, rfl⟩ := eq_nil_or_concat' after
    · obtain ⟨rfl, hlast⟩ := append_inj' hsteps rfl
      obtain ⟨rfl, rfl⟩ := Prod.mk.inj (singleton_inj.mp hlast)
      obtain rfl := run_deterministic run hbefore
      exact .inr hP
    · have hinit : steps ++ [(event, outputs)] = (before ++ (event', outputs') :: rest) ++ [last] := by
        rw [hsteps]
        simp
      exact .inl ⟨before, event', outputs', rest, s₁, (append_inj' hinit rfl).1, hbefore, hP⟩
  · rintro (⟨before, event', outputs', after, s₁, rfl, hbefore, hP⟩ | hP)
    · exact ⟨before, event', outputs', after ++ [(event, outputs)], s₁, by simp, hbefore, hP⟩
    · exact ⟨steps, event, outputs, [], s, rfl, run, hP⟩

theorem repliesTo_snoc : repliesTo k id (steps ++ [(event, outputs)]) =
    repliesTo k id steps + outputs.countP (isReply k id) := by
  simp [repliesTo]

theorem reqReply_id {platform : Platform} : (reqReply platform frame result).id = frame.id := by
  unfold reqReply
  split
  · rfl
  · dsimp only
    split
    · rfl
    · split
      · rfl
      · split <;> rfl

theorem countP_eq_zero (h : Advances s event s' outputs) (hk : event.subject s ≠ some k) :
    outputs.countP (isReply k id) = 0 := by
  rw [List.countP_eq_zero]
  intro output hmem hreply
  unfold isReply at hreply
  split at hreply
  next n reply arrival =>
    obtain ⟨-, rfl, -⟩ := of_decide_eq_true hreply
    exact hk (h.replies n reply arrival hmem)
  · cases hreply

/-- A reply counts when it fits and the connection is open. -/
theorem countP_sendFrame (hid : reply.id = id) (hopen : s.openSocket = some k.connection) :
    (sendFrame options s (.res reply) (some k)).countP (isReply k id) =
      if (encodeFrame options.platform (.res reply)).isSome then 1 else 0 := by
  unfold sendFrame
  rw [hopen]
  cases encodeFrame options.platform (.res reply) with
  | none => rfl
  | some text => simp [isReply, hid]

/-! ## The course of a request -/

/-- A request that has been read is injected and unanswered, or it has got one reply. -/
inductive Progress (options : TunnelClientOptions) (files : StateFiles)
    (steps : List (Event × List Output)) (s : TunnelState) (k : Arrival) (frame : ReqFrame) : Prop
  | waiting (work : s.workOf k = some (.inject frame))
      (unanswered : ∀ reply, ¬ Occurs options files (Replies options k frame reply) steps)
      (unsent : repliesTo k frame.id steps = 0)
  | done (reply : ResFrame) (work : s.workOf k = none)
      (replied : ∀ reply', Occurs options files (Replies options k frame reply') steps ↔
        reply' = reply)
      (sent : s.connection = some (k.connection, .open) → repliesTo k frame.id steps =
        if (encodeFrame options.platform (.res reply)).isSome then 1 else 0)

/-- Nothing has happened to a message that has not arrived. -/
structure Untouched (options : TunnelClientOptions) (files : StateFiles)
    (steps : List (Event × List Output)) (k : Arrival) : Prop where
  unread : ∀ frame, ¬ Occurs options files (Reads options k frame) steps
  unreplied : ∀ frame reply, ¬ Occurs options files (Replies options k frame reply) steps
  unsent : ∀ id, repliesTo k id steps = 0

theorem Reads.subject (h : Reads options k frame s event) : event.subject s = some k := by
  obtain ⟨data, disk, -, hsubject, -⟩ := h
  exact hsubject

theorem Replies.subject (h : Replies options k frame reply s event) : event.subject s = some k := by
  obtain ⟨hreads, -⟩ | ⟨result, rfl, -⟩ := h
  · exact hreads.subject
  · rfl

theorem Untouched.snoc (h : Untouched options files steps k) (run : Run options { files } steps s)
    (hadvances : Advances s event s' outputs) (hk : event.subject s ≠ some k) :
    Untouched options files (steps ++ [(event, outputs)]) k where
  unread := by
    intro frame hoccurs
    obtain hearlier | hnow := (occurs_snoc_iff run).mp hoccurs
    · exact h.unread frame hearlier
    · exact hk hnow.subject
  unreplied := by
    intro frame reply hoccurs
    obtain hearlier | hnow := (occurs_snoc_iff run).mp hoccurs
    · exact h.unreplied frame reply hearlier
    · exact hk hnow.subject
  unsent := fun id ↦ by rw [repliesTo_snoc, h.unsent id, countP_eq_zero hadvances hk]

/-- Between the opening of a connection and its end, it is open. -/
theorem Advances.was_open (h : Advances s event s' outputs) (hsound : Sound options s)
    (hseen : s.Seen k) (hopen : s'.connection = some (k.connection, .open)) :
    s.connection = some (k.connection, .open) := by
  obtain hsame | hconnecting := h.connection _ hopen
  · exact hsame
  · have hfirst := hsound.fresh _ hconnecting
    have hlast := hsound.last _ _ hconnecting
    have hnumber := hseen.2 hlast
    omega

theorem Progress.snoc (h : Progress options files steps s k frame)
    (run : Run options { files } steps s) (hsound : Sound options s) (hseen : s.Seen k)
    (hadvances : Advances s event s' outputs) (hk : event.subject s ≠ some k) :
    Progress options files (steps ++ [(event, outputs)]) s' k frame := by
  have hoccurs (reply : ResFrame) :
      Occurs options files (Replies options k frame reply) (steps ++ [(event, outputs)]) ↔
        Occurs options files (Replies options k frame reply) steps := by
    rw [occurs_snoc_iff run]
    exact or_iff_left fun hnow ↦ hk hnow.subject
  have hsent : repliesTo k frame.id (steps ++ [(event, outputs)]) = repliesTo k frame.id steps := by
    rw [repliesTo_snoc, countP_eq_zero hadvances hk, Nat.add_zero]
  cases h with
  | waiting hwork hopen hunsent =>
    apply Progress.waiting
    · rw [hadvances.workOf k hk, hwork]
    · exact fun reply ↦ by rw [hoccurs]; exact hopen reply
    · rw [hsent, hunsent]
  | done reply hwork hreplied hcount =>
    apply Progress.done reply
    · rw [hadvances.workOf k hk, hwork]
    · exact fun reply' ↦ by rw [hoccurs]; exact hreplied reply'
    · intro hopen
      rw [hsent]
      exact hcount (hadvances.was_open hsound hseen hopen)

/-- An injection that is done is answered. -/
theorem Progress.injected (h : Progress options files steps s k frame)
    (run : Run options { files } steps s) (hsound : Sound options s) (hseen : s.Seen k)
    (hstep : step options s (.injected k result) = some (s', outputs)) :
    Progress options files (steps ++ [(.injected k result, outputs)]) s' k frame := by
  have hadvances := advances hsound hstep
  cases h with
  | done reply hwork =>
    simp [step, hwork] at hstep
  | waiting hwork hopen hunsent =>
    simp only [step, hwork, Option.some.injEq, Prod.mk.injEq] at hstep
    obtain ⟨rfl, rfl⟩ := hstep
    apply Progress.done (reqReply options.platform frame result)
    · show (s.work.filter _).lookup k = none
      rw [lookup_filter_ne, if_pos rfl]
    · intro reply'
      rw [occurs_snoc_iff run]
      constructor
      · rintro (hearlier | ⟨⟨_, _, hevent, -⟩, -⟩ | ⟨result', hevent, -, rfl⟩)
        · exact absurd hearlier (hopen reply')
        · cases hevent
        · injection hevent with _ hresult
          rw [hresult]
      · rintro rfl
        exact .inr (.inr ⟨result, rfl, hwork, rfl⟩)
    · intro hconnection
      have hwas := hadvances.was_open hsound hseen hconnection
      have hsocket := hsound.current _ _ hwas (by simp)
      rw [repliesTo_snoc, hunsent, Nat.zero_add]
      exact countP_sendFrame reqReply_id (openSocket_eq_some.mpr ⟨hsocket, hwas⟩)

/-- What else is about a request that has been read does not happen. -/
theorem Progress.same (h : Progress options files steps s k frame)
    (run : Run options { files } steps s) (hsound : Sound options s) (hseen : s.Seen k)
    (hstep : step options s event = some (s', outputs)) (hk : event.subject s = some k) :
    Progress options files (steps ++ [(event, outputs)]) s' k frame := by
  have hwork : s.workOf k = some (.inject frame) ∨ s.workOf k = none := by
    cases h with
    | waiting hwork => exact .inl hwork
    | done _ hwork => exact .inr hwork
  cases event with
  | injected arrival result =>
    obtain rfl := some.inj hk
    exact h.injected run hsound hseen hstep
  | message data isBinary disk =>
    obtain ⟨⟨n, state⟩, hconnection, rfl⟩ := Option.map_eq_some_iff.mp hk
    exact absurd hseen (hsound.not_seen_next hconnection)
  | forwarded arrival result | stored arrival result =>
    obtain rfl := some.inj hk
    rcases hwork with hwork | hwork <;> simp [step, hwork] at hstep
  | connect => cases hk
  | opened nodeIdentity => cases hk
  | closed code => cases hk
  | tokenWritten token => cases hk
  | stop => cases hk

theorem step_reads {n : Nat} {data : Data} {disk : Bool}
    (hconnection : s.connection = some (n, state)) (hstate : state ≠ .connecting)
    (hpending : s.client.pendingChunk = none)
    (hdecode : decodeFrame options.platform (data.text options.platform) = some (.req frame)) :
    step options s (.message data false disk) =
      some (handleReq options { s with arrived := s.arrived + 1 } ⟨n, s.arrived⟩ frame) := by
  cases state with
  | connecting => exact absurd rfl hstate
  | «open» => simp [step, hconnection, handleMessage, hpending, hdecode, handleFrame]
  | closing => simp [step, hconnection, handleMessage, hpending, hdecode, handleFrame]

/-- A request that is read is refused with one reply, or it is injected. -/
theorem Untouched.reads (h : Untouched options files steps k) (run : Run options { files } steps s)
    (hsound : Sound options s) (hstep : step options s event = some (s', outputs))
    (hreads : Reads options k frame s event) :
    Progress options files (steps ++ [(event, outputs)]) s' k frame := by
  have hadvances := advances hsound hstep
  obtain ⟨data, disk, rfl, hsubject, hpending, hdecode, hdigest⟩ := id hreads
  obtain ⟨⟨n, state⟩, hconnection, rfl⟩ := Option.map_eq_some_iff.mp hsubject
  have hstate : state ≠ .connecting := by
    rintro rfl
    simp [step, hconnection] at hstep
  rw [step_reads hconnection hstate hpending hdecode, handleReq, hdigest] at hstep
  dsimp only at hstep
  have hnew (reply : ResFrame) :
      Occurs options files (Replies options ⟨n, s.arrived⟩ frame reply)
        (steps ++ [(.message data false disk, outputs)]) ↔
      options.concurrencyLimit ≤ s.client.inFlight ∧ reply = tooManyRequests frame.id := by
    rw [occurs_snoc_iff run]
    constructor
    · rintro (hearlier | ⟨-, hlimit, hreply⟩ | ⟨_, hevent, -⟩)
      · exact absurd hearlier (h.unreplied frame reply)
      · exact ⟨hlimit, hreply⟩
      · cases hevent
    · exact fun hrefused ↦ .inr (.inl ⟨hreads, hrefused⟩)
  by_cases hlimit : options.concurrencyLimit ≤ s.client.inFlight
  · rw [if_pos hlimit] at hstep
    obtain ⟨rfl, rfl⟩ := Prod.mk.inj (some.inj hstep)
    apply Progress.done (tooManyRequests frame.id)
    · exact hsound.lookup_next hconnection
    · intro reply
      rw [hnew, and_iff_right hlimit]
    · intro hopen
      have hcurrent := hsound.current n .open hopen (by simp)
      rw [repliesTo_snoc, h.unsent, Nat.zero_add]
      exact countP_sendFrame rfl (openSocket_eq_some.mpr ⟨hcurrent, hopen⟩)
  · rw [if_neg hlimit] at hstep
    obtain ⟨rfl, rfl⟩ := Prod.mk.inj (some.inj hstep)
    apply Progress.waiting
    · have hfresh := hsound.lookup_next hconnection
      simp [TunnelState.workOf, begin, lookup_append, hfresh]
    · intro reply hoccurs
      exact hlimit ((hnew reply).mp hoccurs).1
    · rw [repliesTo_snoc, h.unsent]
      rfl

/-- In every state of a run, messages that have not arrived are untouched, and requests that have
been read take their course. -/
theorem progress_run (run : Run options { files } steps s) (k : Arrival) :
    (¬ s.Seen k → Untouched options files steps k) ∧
      ∀ frame, Occurs options files (Reads options k frame) steps →
        Progress options files steps s k frame := by
  induction run with
  | start =>
    exact ⟨fun _ ↦ ⟨fun _ ↦ not_occurs_nil, fun _ _ ↦ not_occurs_nil, fun _ ↦ rfl⟩,
      fun _ hreads ↦ absurd hreads not_occurs_nil⟩
  | @step steps s s' event outputs run hstep ih =>
    obtain ⟨huntouched, hprogress⟩ := ih
    have hsound := sound_run run
    have hadvances := advances hsound hstep
    constructor
    · intro hunseen
      have hk : event.subject s ≠ some k := fun hsubject ↦ hunseen (hadvances.subject k hsubject)
      exact (huntouched fun hseen ↦ hunseen (hadvances.seen k hseen)).snoc run hadvances hk
    · intro frame hoccurs
      by_cases hseen : s.Seen k
      · have hread : Occurs options files (Reads options k frame) steps := by
          obtain hearlier | hnow := (occurs_snoc_iff run).mp hoccurs
          · exact hearlier
          · obtain ⟨data, disk, rfl, hsubject, -⟩ := hnow
            obtain ⟨⟨n, state⟩, hconnection, rfl⟩ := Option.map_eq_some_iff.mp hsubject
            exact absurd hseen (hsound.not_seen_next hconnection)
        have h := hprogress frame hread
        by_cases hk : event.subject s = some k
        · exact h.same run hsound hseen hstep hk
        · exact h.snoc run hsound hseen hadvances hk
      · have h := huntouched hseen
        obtain hearlier | hnow := (occurs_snoc_iff run).mp hoccurs
        · exact absurd hearlier (h.unread frame)
        · exact h.reads run hsound hstep hnow

/-! ## The requests of the open connection -/

/-- The requests of a connection are served: one reply is sent to each that is done, none before
that, the limit is kept all the time, and nothing is counted when nothing is injected. -/
structure Serves (options : TunnelClientOptions) (files : StateFiles)
    (steps : List (Event × List Output)) (s : TunnelState) (n : Nat) : Prop where
  answered : ∀ k frame, k.connection = n → Occurs options files (Reads options k frame) steps →
    s.workOf k = none → repliesTo k frame.id steps = 1
  waiting : ∀ k frame, k.connection = n → Occurs options files (Reads options k frame) steps →
    s.workOf k ≠ none → s.workOf k = some (.inject frame) ∧ repliesTo k frame.id steps = 0
  bounded : ∀ before after s', steps = before ++ after → Run options { files } before s' →
    s'.injecting ≤ options.concurrencyLimit
  drained : s.injecting = 0 → s.client.inFlight = 0

/-- The requests of the open connection are served exactly when every reply that the client makes
to them fits into a frame. -/
theorem requests_served_iff {n : Nat} (run : Run options { files } steps s)
    (hopen : s.connection = some (n, .open)) :
    Serves options files steps s n ↔
      ∀ k frame reply, k.connection = n →
        Occurs options files (Reads options k frame) steps →
        Occurs options files (Replies options k frame reply) steps →
        (encodeFrame options.platform (.res reply)).isSome = true := by
  have hsound := sound_run run
  constructor
  · rintro hserves k frame reply rfl hreads hreplies
    cases (progress_run run k).2 frame hreads with
    | waiting _ hunreplied => exact absurd hreplies (hunreplied reply)
    | done reply' hwork honly hsent =>
      obtain rfl := (honly reply).mp hreplies
      have hone := hserves.answered k frame rfl hreads hwork
      rw [hsent hopen] at hone
      by_contra hfits
      rw [if_neg hfits] at hone
      cases hone
  · intro hfits
    constructor
    · rintro k frame rfl hreads hdone
      cases (progress_run run k).2 frame hreads with
      | waiting hwork => rw [hwork] at hdone; cases hdone
      | done reply _ honly hsent =>
        rw [hsent hopen, if_pos (hfits k frame reply rfl hreads ((honly reply).mpr rfl))]
    · rintro k frame rfl hreads hbusy
      cases (progress_run run k).2 frame hreads with
      | waiting hwork _ hunsent => exact ⟨hwork, hunsent⟩
      | done _ hwork => exact absurd hwork hbusy
    · intro before after s' _ hbefore
      have hbefore := sound_run hbefore
      rw [← hbefore.inFlight]
      exact hbefore.bounded
    · intro hnone
      rw [hsound.inFlight, hnone]

/-- A reply that does not fit into a frame is never sent, although the request is done. -/
theorem oversized_reply_lost (run : Run options { files } steps s)
    (hopen : s.connection = some (k.connection, .open))
    (hreads : Occurs options files (Reads options k frame) steps)
    (hwork : s.workOf k = some (.inject frame))
    (hlong : encodeFrame options.platform (.res (reqReply options.platform frame result)) = none) :
    ∃ s', Run options { files } (steps ++ [(.injected k result, [])]) s' ∧
      s'.connection = some (k.connection, .open) ∧ s'.workOf k = none ∧
      repliesTo k frame.id (steps ++ [(.injected k result, [])]) = 0 := by
  have hsend : sendFrame options s (.res (reqReply options.platform frame result)) (some k) = [] := by
    unfold sendFrame
    rw [hlong]
    split <;> rfl
  have hstep : step options s (.injected k result) = some ({ s.finish k with
      client := { s.client with inFlight := s.client.inFlight - 1 } }, []) := by
    simp only [step, hwork, hsend]
  refine ⟨_, .step run hstep, hopen, ?_, ?_⟩
  · show (s.work.filter _).lookup k = none
    rw [lookup_filter_ne, if_pos rfl]
  · cases (progress_run run k).2 frame hreads with
    | waiting _ _ hunsent =>
      rw [repliesTo_snoc, hunsent]
      rfl
    | done _ hdone => cases hdone.symm.trans hwork

end

namespace Sample

/-- A request is answered on the connection on which it has arrived. -/
def answered : Option (List (Event × List Output) × TunnelState) :=
  play options {} [.connect, .opened none, .message request false true,
    .injected ⟨0, 0⟩ (.ok ⟨200, ""⟩)]

theorem answered_open :
    answered.any (fun played ↦ decide (played.2.connection = some (0, .open))) = true := by
  decide +kernel

/-- The client is connected, and nothing has arrived. -/
def connected : Option (List (Event × List Output) × TunnelState) :=
  play options {} [.connect, .opened none]

theorem connected_idle :
    connected.any (fun played ↦ decide (played.2.connection = some (0, .open) ∧
      played.2.arrived = 0 ∧ played.2.client.inFlight = 0 ∧
      played.2.client.pendingChunk.isNone = true ∧ played.2.work.isEmpty = true)) = true := by
  decide +kernel

def rawRequest : Data :=
  .string ("\x7b\"t\":\"req\",\"id\":\"a\",\"method\":\"GET\",\"path\":\"/\",\"raw\":true," ++
    "\"timeoutMs\":0\x7d")

def rawFrame (frame : Option Frame) : Bool :=
  match frame with
  | some (.req frame) => frame.raw = some true ∧ stageControlDigest platform frame = none
  | _ => false

theorem exists_long_body :
    ∃ body : String, body ≠ "" ∧ MAX_JSON_FRAME_BYTES < body.toList.length := by
  refine ⟨String.ofList (replicate (MAX_JSON_FRAME_BYTES + 1) 'x'), fun hempty ↦ ?_, ?_⟩
  · cases String.ofList_eq_empty_iff.mp hempty
  · rw [String.toList_ofList, length_replicate]
    exact Nat.lt_succ_self _

theorem rawFrame_rawRequest : rawFrame (decodeFrame platform (rawRequest.text platform)) = true := by
  decide +kernel

end Sample

theorem requests_served_iff_answered : ∃ steps s, Sample.answered = some (steps, s) ∧
    (Serves Sample.options {} steps s 0 ↔
      ∀ k frame reply, k.connection = 0 →
        Occurs Sample.options {} (Reads Sample.options k frame) steps →
        Occurs Sample.options {} (Replies Sample.options k frame reply) steps →
        (encodeFrame Sample.options.platform (.res reply)).isSome = true) := by
  obtain ⟨⟨steps, s⟩, hplay, hopen⟩ := (Option.any_eq_true _ _).mp Sample.answered_open
  have hrun : Run Sample.options { files := {} } steps s := run_play hplay
  exact ⟨steps, s, hplay, requests_served_iff hrun (of_decide_eq_true hopen)⟩

/-- A raw response of more than a million characters is not answered. -/
theorem oversized_response_unserved : ∃ steps s, Run Sample.options {} steps s ∧
    s.connection = some (0, .open) ∧ ¬ Serves Sample.options {} steps s 0 := by
  obtain ⟨⟨steps, s⟩, hplay, hidle⟩ := (Option.any_eq_true _ _).mp Sample.connected_idle
  have run : Run Sample.options { files := {} } steps s := run_play hplay
  obtain ⟨hconnection, harrived, hinFlight, hpending, hwork⟩ := of_decide_eq_true hidle
  rw [Option.isNone_iff_eq_none] at hpending
  rw [List.isEmpty_iff] at hwork
  dsimp only at hconnection harrived hinFlight hpending hwork
  have hraw := Sample.rawFrame_rawRequest
  unfold Sample.rawFrame at hraw
  split at hraw
  next frame hdecode =>
    obtain ⟨hraw, hdigest⟩ := of_decide_eq_true hraw
    replace hdigest : stageControlDigest Sample.options.platform frame = none := hdigest
    have hstep : step Sample.options s (.message Sample.rawRequest false true) = some _ :=
      step_reads hconnection nofun hpending hdecode
    have hlimit : ¬ Sample.options.concurrencyLimit ≤ s.client.inFlight := by
      rw [hinFlight]
      decide
    simp only [handleReq, hdigest, hlimit, if_false] at hstep
    have hreads : Reads Sample.options ⟨0, s.arrived⟩ frame s
        (.message Sample.rawRequest false true) :=
      ⟨_, _, rfl, by simp [Event.subject, hconnection], hpending, hdecode, hdigest⟩
    obtain ⟨body, hbody, hlength⟩ := Sample.exists_long_body
    have hlong : encodeFrame Sample.platform
        (.res (reqReply Sample.platform frame (.ok ⟨200, body⟩))) = none := by
      have hreply : reqReply Sample.platform frame (.ok ⟨200, body⟩) =
          { id := frame.id, status := 200, raw := some true, rawBody := some body } := by
        simp only [reqReply, hbody, hraw, if_false, if_true]
        rfl
      rw [hreply]
      exact encodeFrame_eq_none rfl hlength
    obtain ⟨s', run', hopen, hdone, hunsent⟩ := oversized_reply_lost (.step run hstep)
      (by exact hconnection) ⟨steps, _, _, [], s, rfl, run, hreads⟩
      (by simp [TunnelState.workOf, begin, hwork]) hlong
    refine ⟨_, s', run', hopen, fun hserves ↦ ?_⟩
    have hone := hserves.answered _ frame rfl
      ((occurs_snoc_iff (.step run hstep)).mpr (.inl ⟨steps, _, _, [], s, rfl, run, hreads⟩)) hdone
    rw [hunsent] at hone
    cases hone
  · cases hraw

end PrivosCluster.Tunnel
