import PrivosCluster.Tunnel.Soundness

/-!
# A client that was stopped

The stop lets go of the socket. Work may end later and messages may still arrive until the socket
has closed, but nothing goes out to the Hub any more.
-/

namespace PrivosCluster.Tunnel

open List

/-- The connection that an output goes out on. -/
def Output.connection? : Output → Option Nat
  | .send n _ _ => some n
  | .close n _ => some n
  | .inject _ _ => none
  | .forward _ _ => none
  | .store _ _ => none

/-- Nothing goes out. -/
def Silent (outputs : List Output) : Prop := ∀ output ∈ outputs, output.connection? = none

/-- The client was stopped and has no socket. -/
structure Halted (s : TunnelState) : Prop where
  stopped : s.client.stopped = true
  socket : s.client.socket = none

section

variable {options : TunnelClientOptions} {s s' : TunnelState} {event : Event}
  {arrival : Arrival} {outputs : List Output}

theorem silent_nil : Silent [] := by simp [Silent]

theorem silent_sendFrame {frame : Frame} {inReplyTo : Option Arrival}
    (h : s.client.socket = none) : Silent (sendFrame options s frame inReplyTo) := by
  intro output hmem
  obtain ⟨n, hopen, -, -⟩ := mem_sendFrame.mp hmem
  rw [(openSocket_eq_some.mp hopen).1] at h
  cases h

theorem silent_closeSocket {code : Nat} (h : s.client.socket = none) :
    Silent (closeSocket s code).2 := by
  rw [closeSocket, h]
  exact silent_nil

theorem silent_handleReq {frame : ReqFrame} (h : s.client.socket = none) :
    Silent (handleReq options s arrival frame).2 := by
  unfold handleReq
  split
  · exact silent_nil
  · split
    · exact silent_sendFrame h
    · simp [Silent, Output.connection?]

theorem silent_finalizeStage {id : String} {artifact : StagedArtifact}
    (h : s.client.socket = none) : Silent (finalizeStage options s arrival id artifact).2 := by
  unfold finalizeStage
  dsimp only
  split
  · split
    · simp [Silent, Output.connection?]
    · apply silent_sendFrame
      exact h
  · simp [Silent, Output.connection?]

theorem silent_handleMessage {data : Data} {isBinary disk : Bool} (h : s.client.socket = none) :
    Silent (handleMessage options s arrival data isBinary disk).2 := by
  unfold handleMessage
  split
  · unfold finishChunk
    dsimp only
    split
    · apply silent_closeSocket
      exact h
    · split
      · apply silent_finalizeStage
        exact h
      · exact silent_nil
  · split
    · exact silent_nil
    · unfold handleFrame
      split
      · exact silent_closeSocket h
      · exact silent_nil
      · exact silent_sendFrame h
      · exact silent_handleReq h
      · exact silent_nil
      · simp [Silent, Output.connection?]
      all_goals exact silent_nil

/-- The client stays as it is, whatever happens around it. -/
theorem Halted.step (h : Halted s) (hstep : step options s event = some (s', outputs)) :
    Halted s' ∧ event ≠ .connect ∧ Silent outputs := by
  cases transition hstep with
  | connect _ hrunning =>
    rw [h.stopped] at hrunning
    cases hrunning
  | opened | injected | forwarded =>
    exact ⟨⟨h.stopped, h.socket⟩, by simp, silent_sendFrame h.socket⟩
  | @message n state data isBinary disk =>
    obtain ⟨begun, hreceives⟩ := @receives_handleMessage options { s with arrived := s.arrived + 1 }
      ⟨n, s.arrived⟩ data isBinary disk
    exact ⟨⟨hreceives.stopped.trans h.stopped, hreceives.socket.trans h.socket⟩, by simp,
      silent_handleMessage h.socket⟩
  | closed => exact ⟨⟨h.stopped, rfl⟩, by simp, silent_nil⟩
  | stored =>
    refine ⟨⟨h.stopped, h.socket⟩, by simp, ?_⟩
    split
    · exact silent_sendFrame h.socket
    · exact silent_nil
  | tokenWritten => exact ⟨⟨h.stopped, h.socket⟩, by simp, silent_nil⟩
  | stopped => exact ⟨h, by simp, silent_nil⟩
  | stop hrunning =>
    rw [h.stopped] at hrunning
    cases hrunning

/-- A client that was stopped has let go of its socket. -/
theorem halted_of_stopped {files : StateFiles} {steps : List (Event × List Output)}
    (run : Run options { files } steps s) (h : s.client.stopped = true) : Halted s := by
  induction run with
  | start => cases h
  | @step steps s₁ s₂ event outputs _ happens ih =>
    by_cases hbefore : s₁.client.stopped = true
    · exact ((ih hbefore).step happens).1
    · cases transition happens with
      | stop => exact ⟨h, rfl⟩
      | message data isBinary disk =>
        obtain ⟨begun, hreceives⟩ := receives_handleMessage _ data isBinary disk
        exact absurd (hreceives.stopped.symm.trans h) hbefore
      | _ => exact absurd h hbefore

/-- After a stop the client opens no connection, and neither sends on one nor closes one. -/
theorem silent_after_stop {files : StateFiles} {steps before after : List (Event × List Output)}
    (run : Run options { files } steps s) (hsteps : steps = before ++ (.stop, outputs) :: after) :
    Halted s ∧ ∀ step ∈ after, step.1 ≠ .connect ∧ Silent step.2 := by
  induction run generalizing after with
  | start => simp at hsteps
  | @step steps s₁ s₂ event outputs' earlier happens ih =>
    obtain rfl | ⟨rest, last, rfl⟩ := eq_nil_or_concat' after
    · obtain ⟨rfl, hlast⟩ := append_inj' hsteps rfl
      obtain ⟨rfl, rfl⟩ := Prod.mk.inj (singleton_inj.mp hlast)
      have hstopped : s₂.client.stopped = true := by
        cases transition happens with
        | stopped again => exact again
        | stop => rfl
      exact ⟨halted_of_stopped (.step earlier happens) hstopped, by simp⟩
    · have hinit : steps ++ [(event, outputs')] = (before ++ (.stop, outputs) :: rest) ++ [last] := by
        rw [hsteps]
        simp
      obtain ⟨hrest, hlast⟩ := append_inj' hinit rfl
      obtain rfl := singleton_inj.mp hlast
      obtain ⟨hhalted, hsilent⟩ := ih hrest
      obtain ⟨hstill, hconnect, houtputs⟩ := hhalted.step happens
      refine ⟨hstill, fun step hmem ↦ ?_⟩
      obtain hmem | hmem := mem_append.mp hmem
      · exact hsilent step hmem
      · obtain rfl := mem_singleton.mp hmem
        exact ⟨hconnect, houtputs⟩

end

/-- The socket closes after the stop. -/
theorem closed_silently : ∃ steps s, Run Sample.options {} steps s ∧ Halted s ∧
    (steps.drop 3).length = 1 ∧ ∀ step ∈ steps.drop 3, Silent step.2 := by
  have hplay : play Sample.options {} [.connect, .opened none, .stop, .closed 1000] = some (_, _) := rfl
  have run := run_play hplay
  obtain ⟨hhalted, hsilent⟩ := silent_after_stop run (take_append_drop 2 _).symm
  exact ⟨_, _, run, hhalted, rfl, fun step hmem ↦ (hsilent step hmem).2⟩

end PrivosCluster.Tunnel
