import PrivosCluster.Tunnel.Requests

/-!
# After a reconnect

What a connection has left behind is forgotten step by step: a client that owes nothing but the end
of forwards and of stored artifacts handles the next connection as a client does that has just
been started.
-/

namespace PrivosCluster.Tunnel

open List Option

/-- The client without the work of connections before `n`. -/
def forget (n : Nat) (s : TunnelState) : TunnelState :=
  { s with work := s.work.filter fun item ↦ n ≤ item.1.connection }

/-- No event but the end of earlier work. -/
def Event.own (n : Nat) : Event → Bool
  | .injected arrival _ => n ≤ arrival.connection
  | .forwarded arrival _ => n ≤ arrival.connection
  | .stored arrival _ => n ≤ arrival.connection
  | _ => true

variable {artifact : StagedArtifact} {control : ReqChunkFrame} {disk isBinary : Bool}
  {payload : List UInt8} {data : Data} {item : Arrival × Work} {u : TunnelState}

section

variable {options : TunnelClientOptions} {s s' : TunnelState} {n : Nat} {event : Event}
  {outputs : List Output}

/-! ## Forgetting -/

@[simp]
theorem forget_client : (forget n s).client = s.client := rfl

@[simp]
theorem forget_connection : (forget n s).connection = s.connection := rfl

theorem sendFrame_forget {frame : Frame} {inReplyTo : Option Arrival} :
    sendFrame options (forget n s) frame inReplyTo = sendFrame options s frame inReplyTo :=
  sendFrame_congr rfl

theorem closeSocket_forget {code : Nat} : closeSocket (forget n s) code =
    (forget n (closeSocket s code).1, (closeSocket s code).2) := by
  unfold closeSocket
  rw [forget_client]
  split
  next socket _ =>
    by_cases hclosing : s.connection = some (socket, .closing)
    · have hforget : (forget n s).connection = some (socket, .closing) := hclosing
      rw [if_pos hclosing, if_pos hforget]
    · have hforget : ¬ (forget n s).connection = some (socket, .closing) := hclosing
      rw [if_neg hclosing, if_neg hforget]
      rfl
  · rfl

variable {frame : ReqFrame} {arrival : Arrival}

theorem handleReq_forget (h : n ≤ arrival.connection) :
    handleReq options (forget n s) arrival frame =
      (forget n (handleReq options s arrival frame).1, (handleReq options s arrival frame).2) := by
  unfold handleReq
  split
  · rfl
  · by_cases hlimit : options.concurrencyLimit ≤ s.client.inFlight
    · have hforget : options.concurrencyLimit ≤ (forget n s).client.inFlight := hlimit
      rw [if_pos hlimit, if_pos hforget, sendFrame_forget]
    · have hforget : ¬ options.concurrencyLimit ≤ (forget n s).client.inFlight := hlimit
      rw [if_neg hlimit, if_neg hforget]
      simp [begin, forget, filter_append, h]

theorem finalizeStage_forget {id : String} (h : n ≤ arrival.connection) :
    finalizeStage options (forget n s) arrival id artifact =
      (forget n (finalizeStage options s arrival id artifact).1,
        (finalizeStage options s arrival id artifact).2) := by
  simp only [finalizeStage, forget_client]
  split
  · split
    · simp [begin, forget, filter_append, h]
    · exact Prod.ext rfl (sendFrame_congr rfl)
  · simp [begin, forget, filter_append, h]

theorem finishChunk_forget (h : n ≤ arrival.connection) :
    finishChunk options (forget n s) arrival control payload disk =
      (forget n (finishChunk options s arrival control payload disk).1,
        (finishChunk options s arrival control payload disk).2) := by
  unfold finishChunk
  rw [forget_client]
  dsimp only
  split
  · exact closeSocket_forget (s := setSession s control.id none)
  · split
    · exact finalizeStage_forget (s := setSession s control.id none) h
    · rfl

theorem handleMessage_forget (h : n ≤ arrival.connection) :
    handleMessage options (forget n s) arrival data isBinary disk =
      (forget n (handleMessage options s arrival data isBinary disk).1,
        (handleMessage options s arrival data isBinary disk).2) := by
  simp only [handleMessage, forget_client]
  split
  · exact finishChunk_forget (s := { s with client := { s.client with pendingChunk := none } }) h
  · split
    · rfl
    · unfold handleFrame
      split
      · exact closeSocket_forget
      · rfl
      · exact Prod.ext rfl sendFrame_forget
      · exact handleReq_forget h
      · rfl
      · simp [begin, forget, filter_append, h]
      all_goals rfl

/-- What the client still has to do is known after forgetting, unless it is forgotten. -/
theorem workOf_forget (h : n ≤ arrival.connection) :
    (forget n s).workOf arrival = s.workOf arrival := by
  show (s.work.filter _).lookup arrival = s.work.lookup arrival
  induction s.work with
  | nil => rfl
  | cons item work ih =>
    obtain ⟨key, value⟩ := item
    by_cases hkey : n ≤ key.connection
    · rw [filter_cons_of_pos (by simpa using hkey), List.lookup_cons, List.lookup_cons, ih]
    · have hne : arrival ≠ key := fun heq ↦ hkey (heq ▸ h)
      rw [filter_cons_of_neg (by simpa using hkey), List.lookup_cons, beq_false_of_ne hne, ih]

theorem finish_forget : (forget n s).finish arrival = forget n (s.finish arrival) := by
  simp [forget, TunnelState.finish, List.filter_filter, Bool.and_comm]

/-- An event of the new connection has the same outcome when earlier work is forgotten. -/
theorem step_forget (hcurrent : ∀ m state, s.connection = some (m, state) → n ≤ m)
    (hown : event.own n) :
    step options (forget n s) event = (step options s event).map fun r ↦ (forget n r.1, r.2) := by
  cases event with
  | connect =>
    simp only [step]
    rw [forget_client, forget_connection]
    split <;> rfl
  | opened nodeIdentity =>
    simp only [step]
    rw [forget_connection]
    split
    next m _ =>
      have hhello : helloFrame options { forget n s with connection := some (m, .open) } nodeIdentity =
          helloFrame options { s with connection := some (m, .open) } nodeIdentity := rfl
      rw [hhello]
      exact congrArg some (Prod.ext rfl (sendFrame_congr rfl))
    · rfl
  | message data isBinary disk =>
    simp only [step]
    rw [forget_connection]
    split
    · rfl
    · rfl
    next m state hconnecting hconnection =>
      exact congrArg some (handleMessage_forget (s := { s with arrived := s.arrived + 1 })
        (hcurrent m state hconnection))
  | closed code =>
    simp only [step]
    rw [forget_connection]
    split <;> rfl
  | injected arrival result | forwarded arrival result | stored arrival result =>
    have harrival : n ≤ arrival.connection := of_decide_eq_true hown
    simp only [step]
    rw [workOf_forget harrival, finish_forget]
    split
    · rfl
    · rfl
  | tokenWritten token => rfl
  | stop =>
    simp only [step]
    rw [forget_client, closeSocket_forget]
    split <;> rfl

/-! ## Where work comes from -/

/-- Some message is read as this request, which does not announce an artifact. -/
def Injectable (options : TunnelClientOptions) (frame : ReqFrame) : Prop :=
  ∃ data : Data, decodeFrame options.platform (data.text options.platform) = some (.req frame) ∧
    stageControlDigest options.platform frame = none

theorem mem_work_finalizeStage {id : String}
    (h : item ∈ (finalizeStage options s arrival id artifact).1.work) :
    item ∈ s.work ∨ item.1 = arrival ∧ item.2.isInject = false := by
  have hbegin (announced : Option String) (hmem : item ∈ s.work ++
      [(arrival, Work.store id announced artifact)]) :
      item ∈ s.work ∨ item.1 = arrival ∧ item.2.isInject = false := by
    obtain hold | hnew := mem_append.mp hmem
    · exact .inl hold
    · obtain rfl := mem_singleton.mp hnew
      exact .inr ⟨rfl, rfl⟩
  unfold finalizeStage at h
  dsimp only at h
  split at h
  · split at h
    · exact hbegin _ h
    · exact .inl h
  · exact hbegin _ h

theorem closeSocket_work {code : Nat} : (closeSocket s code).1.work = s.work := by
  unfold closeSocket
  split
  · split <;> rfl
  · rfl

/-- Handling a message begins work for that message; what is injected has been read. -/
theorem mem_work_handleMessage
    (h : item ∈ (handleMessage options s arrival data isBinary disk).1.work) :
    item ∈ s.work ∨ item.1 = arrival ∧ ∀ frame, item.2 = .inject frame → Injectable options frame := by
  unfold handleMessage at h
  split at h
  next control _ =>
    unfold finishChunk at h
    dsimp only at h
    split at h
    · rw [closeSocket_work] at h
      exact .inl h
    · split at h
      · obtain hold | ⟨harrival, hstore⟩ := mem_work_finalizeStage h
        · exact .inl hold
        · refine .inr ⟨harrival, fun frame hinject ↦ ?_⟩
          rw [hinject] at hstore
          cases hstore
      · exact .inl h
  · split at h
    · exact .inl h
    · unfold handleFrame at h
      split at h
      · rw [closeSocket_work] at h
        exact .inl h
      · exact .inl h
      · exact .inl h
      next frame hdecode =>
        unfold handleReq at h
        split at h
        · exact .inl h
        next hdigest =>
          split at h
          · exact .inl h
          · obtain hold | hnew := mem_append.mp h
            · exact .inl hold
            · obtain rfl := mem_singleton.mp hnew
              refine .inr ⟨rfl, fun frame' hframe ↦ ?_⟩
              cases hframe
              exact ⟨data, hdecode, hdigest⟩
      · exact .inl h
      · obtain hold | hnew := mem_append.mp h
        · exact .inl hold
        · obtain rfl := mem_singleton.mp hnew
          exact .inr ⟨rfl, nofun⟩
      all_goals exact .inl h

/-- What a step adds to the work belongs to the current connection. -/
theorem mem_work_step (hstep : step options s event = some (s', outputs)) (h : item ∈ s'.work) :
    item ∈ s.work ∨ (∃ state, s.connection = some (item.1.connection, state)) ∧
      ∀ frame, item.2 = .inject frame → Injectable options frame := by
  cases transition hstep with
  | message data isBinary disk hconnected =>
    obtain hold | ⟨harrival, hinject⟩ := mem_work_handleMessage h
    · exact .inl hold
    · exact .inr ⟨⟨_, by rw [hconnected, harrival]⟩, hinject⟩
  | injected => exact .inl (mem_filter.mp h).1
  | forwarded => exact .inl (mem_filter.mp h).1
  | stored => exact .inl (mem_filter.mp h).1
  | stop =>
    rw [closeSocket_work] at h
    exact .inl h
  | connect | opened | closed | tokenWritten | stopped => exact .inl h

theorem connections_le (hstep : step options s event = some (s', outputs)) :
    s.connections ≤ s'.connections := by
  cases transition hstep with
  | connect => exact Nat.le_succ _
  | message data isBinary disk hconnected =>
    obtain ⟨begun, hreceives⟩ := @receives_handleMessage options
      { s with arrived := s.arrived + 1 } ⟨_, s.arrived⟩ data isBinary disk
    exact hreceives.connections.ge
  | stop =>
    have hclose : Receives options s ⟨0, 0⟩ (closeSocket s 1000).1 none := receives_closeSocket
    exact hclose.connections.ge
  | opened | closed | injected | forwarded | stored | tokenWritten | stopped => exact le_rfl

/-! ## Runs after a reconnect -/

/-- The steps of the new connection and of those after it. -/
def ownSteps (n : Nat) (steps : List (Event × List Output)) : List (Event × List Output) :=
  steps.filter fun step ↦ step.1.own n

variable {steps : List (Event × List Output)}

theorem ownSteps_snoc :
    ownSteps n (steps ++ [(event, outputs)]) =
      ownSteps n steps ++ if event.own n then [(event, outputs)] else [] := by
  cases hown : event.own n <;> simp [ownSteps, hown]

/-- Connection `n` has been made, and nothing is injected for an earlier one. -/
structure Settled (options : TunnelClientOptions) (n : Nat) (s : TunnelState) : Prop where
  sound : Sound options s
  made : n < s.connections
  idle : ∀ item ∈ s.work, item.1.connection < n → item.2.isInject = false

theorem Settled.current (h : Settled options n s) {m : Nat} {state : ReadyState}
    (hconnection : s.connection = some (m, state)) : n ≤ m := by
  have hlast := h.sound.last m state hconnection
  have hmade := h.made
  omega

theorem Settled.step (h : Settled options n s)
    (hstep : step options s event = some (s', outputs)) : Settled options n s' where
  sound := h.sound.step hstep
  made := h.made.trans_le (connections_le hstep)
  idle := by
    intro item hmem hearlier
    obtain hold | ⟨⟨state, hconnection⟩, -⟩ := mem_work_step hstep hmem
    · exact h.idle item hold hearlier
    · exact absurd (h.current hconnection) (by omega)

/-- The end of earlier work changes nothing but that work. -/
theorem Settled.forget_step (h : Settled options n s) (hother : event.own n = false)
    (hstep : Tunnel.step options s event = some (s', outputs)) : forget n s' = forget n s := by
  have hdone {arrival : Arrival} (hearlier : ¬ n ≤ arrival.connection) :
      forget n (s.finish arrival) = forget n s := by
    unfold forget TunnelState.finish
    congr 1
    rw [List.filter_filter]
    apply filter_congr
    intro item _
    by_cases hitem : n ≤ item.1.connection
    · have hne : item.1 ≠ arrival := fun heq ↦ hearlier (heq ▸ hitem)
      simp [hitem, hne]
    · simp [hitem]
  cases transition hstep with
  | injected result hwork =>
    have hearlier := of_decide_eq_false hother
    have hidle := h.idle _ (mem_of_lookup hwork) (Nat.lt_of_not_le hearlier)
    cases hidle
  | forwarded result hwork => exact hdone (of_decide_eq_false hother)
  | stored result hwork => exact hdone (of_decide_eq_false hother)
  | connect | opened | message | closed | tokenWritten | stopped | stop => cases hother

theorem run_forget (h : Settled options n s) (run : Run options s steps s') :
    Settled options n s' ∧ Run options (forget n s) (ownSteps n steps) (forget n s') := by
  induction run with
  | start => exact ⟨h, .start⟩
  | @step steps s₁ s₂ event outputs earlier happens ih =>
    obtain ⟨hsettled, hrun⟩ := ih
    refine ⟨hsettled.step happens, ?_⟩
    rw [ownSteps_snoc]
    cases hown : event.own n with
    | true =>
      apply Run.step hrun
      rw [step_forget (fun _ _ ↦ hsettled.current) hown, happens]
      rfl
    | false =>
      rw [if_neg Bool.false_ne_true, append_nil, hsettled.forget_step hown happens]
      exact hrun

/-- Only work that is not forgotten can end. -/
theorem own_of_step (hstep : step options (forget n s) event = some (s', outputs)) :
    event.own n := by
  have hkept {arrival : Arrival} {done : Work} (hwork : (forget n s).workOf arrival = some done) :
      n ≤ arrival.connection := by
    have hmem := mem_filter.mp (mem_of_lookup hwork)
    exact of_decide_eq_true hmem.2
  cases transition hstep with
  | injected result hwork => exact decide_eq_true (hkept hwork)
  | forwarded result hwork => exact decide_eq_true (hkept hwork)
  | stored result hwork => exact decide_eq_true (hkept hwork)
  | connect | opened | message | closed | tokenWritten | stopped | stop => rfl

theorem run_of_forget (h : Settled options n s) (run : Run options (forget n s) steps u) :
    ∃ t, Settled options n t ∧ Run options s steps t ∧ forget n t = u := by
  generalize hstart : forget n s = start at run
  induction run with
  | start => exact ⟨s, h, .start, hstart⟩
  | @step steps u₁ u₂ event outputs earlier happens ih =>
    obtain ⟨t, hsettled, hrun, rfl⟩ := ih
    rw [step_forget (fun _ _ ↦ hsettled.current) (own_of_step happens)] at happens
    obtain ⟨⟨t', outputs'⟩, hstep, hresult⟩ := map_eq_some_iff.mp happens
    obtain ⟨rfl, rfl⟩ := Prod.mk.inj hresult
    exact ⟨t', hsettled.step hstep, .step hrun hstep, rfl⟩

/-! ## A client that has just been started -/

/-- A client that is started with the same credentials; its connections are numbered on. -/
def started (s : TunnelState) : TunnelState := { files := s.files, connections := s.connections }

/-- The state after the next connection has been made. -/
def connected (s : TunnelState) : TunnelState :=
  { s with
    client := { s.client with socket := some s.connections }
    connection := some (s.connections, .connecting)
    connections := s.connections + 1
    arrived := 0 }

theorem step_connect (hclosed : s.connection = none) (hrunning : s.client.stopped = false) :
    step options s .connect = some (connected s, []) := by
  simp [step, hclosed, hrunning, connected]

/-- The next connection, and all that follow, are handled as by a client that has just been
started: both clients do the same, apart from the end of earlier work. -/
structure HandledAsFresh (options : TunnelClientOptions) (s : TunnelState) : Prop where
  forth : ∀ steps t, Run options (connected s) steps t →
    ∃ u, Run options (connected (started s)) (ownSteps s.connections steps) u
  back : ∀ steps u, Run options (connected (started s)) steps u →
    ∃ t, Run options (connected s) steps t

variable {files : StateFiles}

/-- No connection is open, so no chunk is being received and no reply is owed to a stream. -/
theorem idle_run (run : Run options { files } steps s) (hclosed : s.connection = none) :
    s.client.stageSessions = (fun _ ↦ none) ∧ s.client.pendingStageReplies = fun _ ↦ none := by
  induction run with
  | start => exact ⟨rfl, rfl⟩
  | step earlier happens ih =>
    cases transition happens with
    | connect => cases hclosed
    | opened => cases hclosed
    | message data isBinary disk hconnected =>
      obtain ⟨begun, hreceives⟩ := receives_handleMessage _ data isBinary disk
      obtain hsame | ⟨n, -, hclosing⟩ := hreceives.connection
      · rw [hclosed] at hsame
        cases hsame.trans hconnected
      · cases hclosed.symm.trans hclosing
    | closed => exact ⟨rfl, rfl⟩
    | injected => exact ih hclosed
    | forwarded => exact ih hclosed
    | stored => exact ih hclosed
    | tokenWritten => exact ih hclosed
    | stopped => exact ih hclosed
    | stop => exact ⟨rfl, rfl⟩

/-- With nothing half received and nothing injected, the old client forgets its way to the new
one. -/
theorem forget_connected (run : Run options { files } steps s) (hclosed : s.connection = none)
    (hrunning : s.client.stopped = false) (hchunk : s.client.pendingChunk = none)
    (hinFlight : s.client.inFlight = 0) :
    forget s.connections (connected s) = connected (started s) := by
  obtain ⟨hsessions, hreplies⟩ := idle_run run hclosed
  have hclient : { s.client with socket := some s.connections } =
      ({ socket := some s.connections } : TunnelClient) := by
    simp only [hrunning, hchunk, hinFlight, hsessions, hreplies]
  have hwork : s.work.filter (fun item ↦ s.connections ≤ item.1.connection) = [] := by
    rw [filter_eq_nil_iff]
    intro item hmem
    have hseen := ((sound_run run).seen item hmem).1
    simp only [decide_eq_true_eq]
    omega
  simp only [forget, connected, started, hwork, hclient]

theorem settled_connected (run : Run options { files } steps s) (hclosed : s.connection = none)
    (hrunning : s.client.stopped = false) (hinFlight : s.client.inFlight = 0) :
    Settled options s.connections (connected s) where
  sound := (sound_run run).step (step_connect hclosed hrunning)
  made := Nat.lt_succ_self _
  idle := by
    intro item hmem _
    have hnone : s.injecting = 0 := (sound_run run).inFlight.symm.trans hinFlight
    rw [TunnelState.injecting, List.countP_eq_zero] at hnone
    exact Bool.eq_false_of_not_eq_true (hnone item hmem)

theorem handledAsFresh (run : Run options { files } steps s) (hclosed : s.connection = none)
    (hrunning : s.client.stopped = false) (hchunk : s.client.pendingChunk = none)
    (hinFlight : s.client.inFlight = 0) : HandledAsFresh options s := by
  have hforget := forget_connected run hclosed hrunning hchunk hinFlight
  have hsettled := settled_connected run hclosed hrunning hinFlight
  constructor
  · intro steps t hrun
    rw [← hforget]
    exact ⟨_, (run_forget hsettled hrun).2⟩
  · intro steps u hrun
    rw [← hforget] at hrun
    obtain ⟨t, -, hrun, -⟩ := run_of_forget hsettled hrun
    exact ⟨t, hrun⟩

/-! ## What is left behind shows -/

theorem run_cons {s'' : TunnelState} (run : Run options s ((event, outputs) :: steps) s'') :
    ∃ s', step options s event = some (s', outputs) ∧ Run options s' steps s'' := by
  generalize hsteps : (event, outputs) :: steps = all at run
  induction run generalizing steps with
  | start => cases hsteps
  | @step earlierSteps s₁ s₂ event' outputs' earlier happens ih =>
    cases earlierSteps with
    | nil =>
      obtain rfl := run_deterministic earlier .start
      obtain ⟨heq, rfl⟩ := List.cons.inj hsteps
      obtain ⟨rfl, rfl⟩ := Prod.mk.inj heq
      exact ⟨s₂, happens, .start⟩
    | cons first rest =>
      obtain ⟨rfl, rfl⟩ := List.cons.inj hsteps
      obtain ⟨s', hstep, hrun⟩ := ih rfl
      exact ⟨s', hstep, .step hrun happens⟩

/-- A chunk never leads to the code of a bad frame. -/
theorem not_mem_finishChunk :
    Output.close n 4400 ∉ (finishChunk options s arrival control payload disk).2 := by
  unfold finishChunk
  dsimp only
  split
  · unfold closeSocket
    split
    · split <;> simp
    · simp
  · split
    · unfold finalizeStage
      dsimp only
      split
      · split
        · simp
        · intro hsend
          obtain ⟨_, -, -, hout⟩ := mem_sendFrame.mp hsend
          cases hout
      · simp
    · simp

theorem decodeFrame_empty {platform : Platform} : decodeFrame platform "" = none := by
  rfl

/-- The state after the next connection has been opened. -/
def reopened (s : TunnelState) : TunnelState :=
  { connected s with connection := some (s.connections, .open) }

theorem step_reopened : step options (connected s) (.opened none) = some (reopened s,
    sendFrame options (reopened s) (helloFrame options (reopened s) none) none) := rfl

/-- The opening of the connection is no difference. -/
theorem HandledAsFresh.reopened (h : HandledAsFresh options s)
    (run : Run options (reopened (started s)) steps u) : ∃ t, Run options (reopened s) steps t := by
  obtain ⟨t, hrun⟩ := h.back _ u (Run.trans (.step .start step_reopened) run)
  obtain ⟨s', hstep, hrest⟩ := run_cons hrun
  obtain ⟨rfl, -⟩ := step_deterministic step_reopened hstep
  exact ⟨t, hrest⟩

/-- The payload of a chunk is awaited, so a bad frame is not seen as one. -/
theorem not_handledAsFresh_of_pendingChunk (hchunk : s.client.pendingChunk ≠ none) :
    ¬ HandledAsFresh options s := by
  intro h
  obtain ⟨control, hcontrol⟩ := ne_none_iff_exists'.mp hchunk
  obtain ⟨f, hfresh⟩ : ∃ f, step options (reopened (started s)) (.message (.string "") false true) =
      some (f, [.close s.connections 4400]) := by
    simp [step, Tunnel.reopened, connected, started, handleMessage, Data.text, decodeFrame_empty,
      handleFrame, closeSocket]
  obtain ⟨t, hrun⟩ := h.reopened (.step .start hfresh)
  obtain ⟨s', hstep, -⟩ := run_cons hrun
  simp only [step, Tunnel.reopened, connected, handleMessage, hcontrol, Option.some.injEq] at hstep
  have hmem : Output.close s.connections 4400 ∈ [Output.close s.connections 4400] := by simp
  rw [← (Prod.mk.inj hstep).2] at hmem
  exact not_mem_finishChunk hmem

/-- Below the limit a request is injected. -/
theorem step_injects (hopen : s.connection = some (n, .open))
    (hpending : s.client.pendingChunk = none)
    (hdecode : decodeFrame options.platform (data.text options.platform) = some (.req frame))
    (hdigest : stageControlDigest options.platform frame = none)
    (hlimit : s.client.inFlight < options.concurrencyLimit) :
    ∃ s', step options s (.message data false true) =
        some (s', [.inject ⟨n, s.arrived⟩ (injectOptions options.platform frame)]) ∧
      s'.connection = some (n, .open) ∧ s'.client.pendingChunk = none ∧
      s'.client.inFlight = s.client.inFlight + 1 := by
  have hstep : step options s (.message data false true) = some _ :=
    step_reads hopen nofun hpending hdecode
  simp only [handleReq, hdigest, if_neg (Nat.not_le.mpr hlimit)] at hstep
  exact ⟨_, hstep, hopen, hpending, rfl⟩

/-- Requests that are injected count on: of two clients with different counts, one reaches the
limit first. -/
theorem limit_reached (hframe : Injectable options frame) {f : TunnelState}
    (hsame : ∀ steps u, Run options f steps u → ∃ t, Run options s steps t)
    (hopen : s.connection = some (n, .open)) (hopen' : f.connection = some (n, .open))
    (hpending : s.client.pendingChunk = none) (hpending' : f.client.pendingChunk = none)
    (hlt : f.client.inFlight < s.client.inFlight)
    (hle : s.client.inFlight ≤ options.concurrencyLimit) : False := by
  obtain ⟨data, hdecode, hdigest⟩ := hframe
  generalize hleft : options.concurrencyLimit - s.client.inFlight = left
  induction left generalizing s f with
  | zero =>
    obtain ⟨f', hfresh, -⟩ := step_injects hopen' hpending' hdecode hdigest (by omega)
    obtain ⟨t, hrun⟩ := hsame _ f' (.step .start hfresh)
    obtain ⟨s', hstep, -⟩ := run_cons hrun
    have hlimit : options.concurrencyLimit ≤ s.client.inFlight := by omega
    rw [step_reads hopen nofun hpending hdecode] at hstep
    simp only [handleReq, hdigest, if_pos hlimit] at hstep
    have hsend := (Prod.mk.inj (some.inj hstep)).2
    have hmem : Output.inject ⟨n, f.arrived⟩ (injectOptions options.platform frame) ∈
        [Output.inject ⟨n, f.arrived⟩ (injectOptions options.platform frame)] := by simp
    rw [← hsend] at hmem
    obtain ⟨_, -, -, hout⟩ := mem_sendFrame.mp hmem
    cases hout
  | succ left ih =>
    obtain ⟨f', hfresh, hopenf, hpendingf, hcountf⟩ :=
      step_injects hopen' hpending' hdecode hdigest (by omega)
    obtain ⟨s', hstep, hopens, hpendings, hcounts⟩ :=
      step_injects hopen hpending hdecode hdigest (by omega)
    refine ih ?_ hopens hopenf hpendings hpendingf (by omega) (by omega) (by omega)
    intro steps u hrun
    obtain ⟨t, hrun'⟩ := hsame _ u (Run.trans (.step .start hfresh) hrun)
    obtain ⟨s'', hstep', hrest⟩ := run_cons hrun'
    obtain ⟨rfl, -⟩ := step_deterministic hstep hstep'
    exact ⟨t, hrest⟩

/-- What is injected has been read. -/
theorem injectable_run (run : Run options { files } steps s)
    (hmem : (arrival, Work.inject frame) ∈ s.work) : Injectable options frame := by
  induction run with
  | start => cases hmem
  | step earlier happens ih =>
    obtain hold | ⟨-, hinject⟩ := mem_work_step happens hmem
    · exact ih hold
    · exact hinject frame rfl

theorem not_handledAsFresh_of_inFlight (run : Run options { files } steps s)
    (hchunk : s.client.pendingChunk = none) (hinFlight : s.client.inFlight ≠ 0) :
    ¬ HandledAsFresh options s := by
  intro h
  have hsound := sound_run run
  have hcount : 0 < s.injecting := by
    rw [← hsound.inFlight]
    exact Nat.pos_of_ne_zero hinFlight
  obtain ⟨⟨arrival, work⟩, hmem, hinject⟩ := countP_pos_iff.mp hcount
  cases work with
  | inject frame =>
    exact limit_reached (injectable_run run hmem) (fun _ _ hrun ↦ h.reopened hrun) rfl rfl hchunk
      rfl (Nat.pos_of_ne_zero hinFlight) hsound.bounded
  | forward => cases hinject
  | store => cases hinject

end

namespace Sample

def chunk : Data :=
  .string ("\x7b\"t\":\"req-chunk\",\"id\":\"a\",\"seq\":0,\"byteLength\":0," ++
    "\"last\":true\x7d")

/-- The connection closes between the control frame of a chunk and its payload. -/
def halfReceived : Option (List (Event × List Output) × TunnelState) :=
  play options {} [.connect, .opened none, .message chunk false true, .closed 1006]

theorem halfReceived_closed :
    halfReceived.any (fun played ↦ played.2.connection.isNone && !played.2.client.stopped &&
      played.2.client.pendingChunk.isSome) := by
  decide +kernel

end Sample

end PrivosCluster.Tunnel
