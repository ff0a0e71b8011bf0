import PrivosCluster.Tunnel.TunnelClient

/-!
# Which connection a reply goes out on

A reply to a message is sent on the socket that is open when the work is done. That is the socket
of the message as long as no other connection has been opened meanwhile.
-/

namespace PrivosCluster.Tunnel

open List Option

variable {reply : ResFrame} {event : Event} {s'' : TunnelState}

section

variable {options : TunnelClientOptions} {s s' : TunnelState} {n : Nat} {frame : Frame}
  {inReplyTo : Option Arrival} {outputs : List Output}

theorem openSocket_eq_some :
    s.openSocket = some n ↔ s.client.socket = some n ∧ s.connection = some (n, .open) := by
  simp [TunnelState.openSocket, Option.filter_eq_some_iff]

/-- What is sent, and when. -/
theorem mem_sendFrame {output : Output} : output ∈ sendFrame options s frame inReplyTo ↔
    ∃ n, s.openSocket = some n ∧ (encodeFrame options.platform frame).isSome ∧
      output = .send n frame inReplyTo := by
  unfold sendFrame
  cases s.openSocket with
  | none => simp
  | some socket => cases encodeFrame options.platform frame <;> simp

theorem sendFrame_congr (h : s'.openSocket = s.openSocket) :
    sendFrame options s' frame inReplyTo = sendFrame options s frame inReplyTo := by
  rw [sendFrame, sendFrame, h]

theorem not_mem_closeSocket {code n : Nat} {frame : Frame} {inReplyTo : Option Arrival} :
    Output.send n frame inReplyTo ∉ (closeSocket s code).2 := by
  unfold closeSocket
  split
  · split <;> simp
  · simp

/-- Replies that are sent while a message is handled answer that message, where it arrived. -/
def Immediate (s : TunnelState) (arrival : Arrival) (outputs : List Output) : Prop :=
  ∀ n reply a, Output.send n (.res reply) (some a) ∈ outputs → a = arrival ∧ s.openSocket = some n

variable {arrival : Arrival}

theorem immediate_sendFrame (h : s'.openSocket = s.openSocket) :
    Immediate s arrival (sendFrame options s' (.res reply) (some arrival)) := by
  intro n reply' a hsend
  obtain ⟨m, hopen, -, hout⟩ := mem_sendFrame.mp hsend
  injection hout with hn _ ha
  exact ⟨some.inj ha, by rw [← h, hopen, hn]⟩

theorem immediate_of_no_send (h : ∀ n frame r, Output.send n frame r ∉ outputs) :
    Immediate s arrival outputs :=
  fun n _ _ hsend ↦ absurd hsend (h n _ _)

theorem immediate_handleReq {frame : ReqFrame} :
    Immediate s arrival (handleReq options s arrival frame).2 := by
  unfold handleReq
  split
  · exact immediate_of_no_send (by simp)
  · split
    · exact immediate_sendFrame rfl
    · exact immediate_of_no_send (by simp)

theorem immediate_finalizeStage {id : String} {artifact : StagedArtifact}
    (h : s'.openSocket = s.openSocket) :
    Immediate s arrival (finalizeStage options s' arrival id artifact).2 := by
  unfold finalizeStage
  dsimp only
  split
  · split
    · exact immediate_of_no_send (by simp)
    · exact immediate_sendFrame h
  · exact immediate_of_no_send (by simp)

theorem immediate_handleMessage {data : Data} {isBinary disk : Bool} :
    Immediate s arrival (handleMessage options s arrival data isBinary disk).2 := by
  unfold handleMessage
  split
  · unfold finishChunk
    dsimp only
    split
    · exact immediate_of_no_send fun _ _ _ ↦ not_mem_closeSocket
    · split
      · exact immediate_finalizeStage rfl
      · exact immediate_of_no_send (by simp)
  · split
    · exact immediate_of_no_send (by simp)
    · unfold handleFrame
      split
      · exact immediate_of_no_send fun _ _ _ ↦ not_mem_closeSocket
      · exact immediate_of_no_send (by simp)
      · intro n reply a hsend
        obtain ⟨_, -, -, hout⟩ := mem_sendFrame.mp hsend
        injection hout with _ hframe _
        cases hframe
      · exact immediate_handleReq
      all_goals exact immediate_of_no_send (by simp)

/-! ## Replies when work is done -/

/-- The reply that is due when work is done. -/
def dueReply (options : TunnelClientOptions) (s : TunnelState) : Event → Option (Arrival × ResFrame)
  | .injected arrival result =>
    match s.workOf arrival with
    | some (.inject frame) => some (arrival, reqReply options.platform frame result)
    | _ => none
  | .forwarded arrival result =>
    match s.workOf arrival with
    | some (.forward frame) => some (arrival, forwardReply frame result)
    | _ => none
  | .stored arrival result =>
    match s.workOf arrival with
    | some (.store id (some _) artifact) => some (arrival, stageReply id artifact result)
    | _ => none
  | _ => none

/-- When work is done whose reply fits into a frame, no later connection is open. -/
def Prompt (options : TunnelClientOptions) (s : TunnelState) (event : Event) : Prop :=
  ∀ arrival reply, dueReply options s event = some (arrival, reply) →
    (encodeFrame options.platform (.res reply)).isSome = true →
      ∀ n, s.openSocket = some n → n = arrival.connection

/-- Every reply goes out on the connection on which the message that it answers arrived. -/
def OnOwnConnection (outputs : List Output) : Prop :=
  ∀ n reply arrival, Output.send n (.res reply) (some arrival) ∈ outputs → n = arrival.connection

theorem onOwnConnection_nil : OnOwnConnection [] := nofun

theorem onOwnConnection_sendFrame_iff :
    OnOwnConnection (sendFrame options s (.res reply) (some arrival)) ↔
      ((encodeFrame options.platform (.res reply)).isSome →
        ∀ n, s.openSocket = some n → n = arrival.connection) := by
  constructor
  · intro h hfits n hopen
    exact h n reply arrival (mem_sendFrame.mpr ⟨n, hopen, hfits, rfl⟩)
  · intro h n reply' a hsend
    obtain ⟨m, hopen, hfits, hout⟩ := mem_sendFrame.mp hsend
    injection hout with hn hframe ha
    rw [some.inj ha, hn]
    exact h hfits m hopen

/-- One step sends its replies on the right connection exactly when it is prompt. -/
theorem onOwnConnection_step_iff (h : step options s event = some (s', outputs)) :
    OnOwnConnection outputs ↔ Prompt options s event := by
  have hquiet {event : Event} (hnone : dueReply options s event = none) :
      Prompt options s event := by
    intro arrival reply hdue
    rw [hnone] at hdue
    cases hdue
  have hdue {event : Event} {arrival : Arrival} {reply : ResFrame}
      (hreply : dueReply options s event = some (arrival, reply)) :
      OnOwnConnection (sendFrame options s (.res reply) (some arrival)) ↔
        Prompt options s event := by
    rw [onOwnConnection_sendFrame_iff]
    constructor
    · rintro howned arrival' reply' hreply'
      cases some.inj (hreply.symm.trans hreply')
      exact howned
    · exact fun hprompt ↦ hprompt _ _ hreply
  cases transition h with
  | connect => exact iff_of_true onOwnConnection_nil (hquiet rfl)
  | opened nodeIdentity hconnecting =>
    refine iff_of_true (fun n reply arrival hsend ↦ ?_) (hquiet rfl)
    obtain ⟨_, -, -, hout⟩ := mem_sendFrame.mp hsend
    injection hout with _ _ hreply
    cases hreply
  | message data isBinary disk hconnected hready =>
    refine iff_of_true (fun n reply arrival hsend ↦ ?_) (hquiet rfl)
    obtain ⟨rfl, hopen⟩ := immediate_handleMessage n reply arrival hsend
    have hcurrent : s.connection = some (n, .open) := (openSocket_eq_some.mp hopen).2
    rw [hconnected] at hcurrent
    exact (congrArg Prod.fst (some.inj hcurrent)).symm
  | closed => exact iff_of_true onOwnConnection_nil (hquiet rfl)
  | injected result hwork => exact hdue (by simp [dueReply, hwork])
  | forwarded result hwork => exact hdue (by simp [dueReply, hwork])
  | @stored _ _ announced _ result hwork =>
    cases announced with
    | none => exact iff_of_true onOwnConnection_nil (hquiet (by simp [dueReply, hwork]))
    | some digest => exact hdue (by simp [dueReply, hwork])
  | tokenWritten => exact iff_of_true onOwnConnection_nil (hquiet rfl)
  | stopped => exact iff_of_true onOwnConnection_nil (hquiet rfl)
  | stop =>
    exact iff_of_true (fun n reply arrival hsend ↦ absurd hsend not_mem_closeSocket) (hquiet rfl)

/-! ## Whole runs -/

theorem step_deterministic {outputs' : List Output} (h : step options s event = some (s', outputs))
    (h' : step options s event = some (s'', outputs')) : s' = s'' ∧ outputs = outputs' :=
  Prod.mk.inj (some.inj (h.symm.trans h'))

variable {steps : List (Event × List Output)}

/-- A run up to one of its events, and the step of that event. -/
theorem run_split (run : Run options s steps s') {before after : List (Event × List Output)}
    {outputs : List Output} (hsteps : steps = before ++ (event, outputs) :: after) :
    ∃ s₁ s₂, Run options s before s₁ ∧ step options s₁ event = some (s₂, outputs) := by
  induction run generalizing after with
  | start => simp at hsteps
  | @step steps s₁ s₂ event' outputs' earlier happens ih =>
    obtain rfl | ⟨rest, last, rfl⟩ := eq_nil_or_concat' after
    · obtain ⟨rfl, hlast⟩ := append_inj' hsteps rfl
      obtain ⟨rfl, rfl⟩ := Prod.mk.inj (singleton_inj.mp hlast)
      exact ⟨s₁, s₂, earlier, happens⟩
    · have hinit : steps ++ [(event', outputs')] = (before ++ (event, outputs) :: rest) ++ [last] := by
        rw [hsteps]
        simp
      exact ih (append_inj' hinit rfl).1

/-- The events of a run lead to one state only. -/
theorem run_deterministic (run : Run options s steps s') (run' : Run options s steps s'') :
    s' = s'' := by
  generalize hsteps : steps = steps' at run'
  induction run generalizing steps' s'' with
  | start =>
    cases run' with
    | start => rfl
    | step => simp at hsteps
  | @step steps s₁ s₂ event outputs earlier happens ih =>
    cases run' with
    | start => simp at hsteps
    | @step steps' s₁' _ event' outputs' earlier' happens' =>
      obtain ⟨rfl, hlast⟩ := append_inj' hsteps rfl
      obtain ⟨rfl, rfl⟩ := Prod.mk.inj (singleton_inj.mp hlast)
      obtain rfl := ih _ rfl earlier'
      exact (step_deterministic happens happens').1

/-- In a run all replies go out where their messages arrived, exactly when work whose reply fits
into a frame is never done while a later connection is open. -/
theorem replies_on_own_connection_iff {files : StateFiles} {steps : List (Event × List Output)}
    (run : Run options { files } steps s) :
    (∀ event outputs, (event, outputs) ∈ steps → OnOwnConnection outputs) ↔
      ∀ before event outputs after, steps = before ++ (event, outputs) :: after →
        ∀ s', Run options { files } before s' → Prompt options s' event := by
  constructor
  · intro howned before event outputs after hsteps s' hbefore
    obtain ⟨s₁, s₂, hrun, hstep⟩ := run_split run hsteps
    obtain rfl := run_deterministic hbefore hrun
    have hmem : (event, outputs) ∈ steps := by simp [hsteps]
    exact (onOwnConnection_step_iff hstep).mp (howned event outputs hmem)
  · intro hprompt event outputs hmem
    obtain ⟨before, after, hsteps⟩ := append_of_mem hmem
    obtain ⟨s₁, s₂, hrun, hstep⟩ := run_split run hsteps
    exact (onOwnConnection_step_iff hstep).mpr (hprompt before event outputs after hsteps s₁ hrun)

theorem Run.trans {steps' : List (Event × List Output)} (run : Run options s steps s')
    (run' : Run options s' steps' s'') : Run options s (steps ++ steps') s'' := by
  induction run' with
  | start => rwa [append_nil]
  | step _ happens ih =>
    rw [← append_assoc]
    exact .step ih happens

/-- The run through some events, if they can all happen. -/
def play (options : TunnelClientOptions) (s : TunnelState) :
    List Event → Option (List (Event × List Output) × TunnelState)
  | [] => some ([], s)
  | event :: events => do
    let (s', outputs) ← step options s event
    let (steps, s'') ← play options s' events
    some ((event, outputs) :: steps, s'')

theorem run_play {events : List Event} (h : play options s events = some (steps, s')) :
    Run options s steps s' := by
  induction events generalizing s steps with
  | nil =>
    obtain ⟨rfl, rfl⟩ := Prod.mk.inj (some.inj h)
    exact .start
  | cons event events ih =>
    simp only [play, Option.bind_eq_bind, Option.bind_eq_some_iff, Prod.exists] at h
    obtain ⟨s₁, outputs, hstep, steps', s₂, hplay, hsteps⟩ := h
    obtain ⟨rfl, rfl⟩ := Prod.mk.inj (some.inj hsteps)
    exact Run.trans (Run.step Run.start hstep) (ih hplay)

/-- A reply that goes out on another connection. -/
def misdirected : Output → Bool
  | .send n (.res _) (some arrival) => n != arrival.connection
  | _ => false

theorem not_onOwnConnection_of_misdirected (h : outputs.any misdirected) :
    ¬ OnOwnConnection outputs := by
  intro howned
  obtain ⟨output, hmem, hwrong⟩ := List.any_eq_true.mp h
  unfold misdirected at hwrong
  split at hwrong
  · exact bne_iff_ne.mp hwrong (howned _ _ _ hmem)
  · cases hwrong

end

namespace Sample

/-- The sample texts hold no number but zero. -/
def platform : Platform where
  number := fun _ ↦ some 0
  numberText := fun n ↦ if n = 0 then "0" else "200"
  toUpperCase := id
  trim := id
  replaceInvalid := fun _ ↦ ""
  sha256Hex := fun _ ↦ ""
  searchParams := fun _ ↦ ""

def options : TunnelClientOptions where
  clusterId := "cluster"
  version := "1"
  stateDir := "/state"
  operatorRoutes := false
  artifactStaging := true
  concurrencyLimit := 8
  platform := platform

def request : Data :=
  .string "\x7b\"t\":\"req\",\"id\":\"a\",\"method\":\"GET\",\"path\":\"/\",\"timeoutMs\":0\x7d"

/-- A request is answered after the Hub has reconnected. -/
def answeredLate : Option (List (Event × List Output) × TunnelState) :=
  play options {} [.connect, .opened none, .message request false true, .closed 1006, .connect,
    .opened none, .injected ⟨0, 0⟩ (.ok ⟨200, ""⟩)]

theorem answeredLate_misdirected :
    answeredLate.any (fun played ↦ played.1.any fun step ↦ step.2.any misdirected) := by
  decide +kernel

end Sample

/-- The reply to a request of the first connection goes out on the second one. -/
theorem late_reply_misdirected : ∃ steps s, Run Sample.options {} steps s ∧
    ¬ ∀ event outputs, (event, outputs) ∈ steps → OnOwnConnection outputs := by
  obtain ⟨⟨steps, s⟩, hplay, hwrong⟩ := (Option.any_eq_true _ _).mp Sample.answeredLate_misdirected
  refine ⟨steps, s, run_play hplay, fun howned ↦ ?_⟩
  obtain ⟨⟨event, outputs⟩, hmem, hany⟩ := List.any_eq_true.mp hwrong
  exact not_onOwnConnection_of_misdirected hany (howned event outputs hmem)

theorem replies_on_own_connection_iff_answeredLate : ∃ steps s,
    Sample.answeredLate = some (steps, s) ∧
    ((∀ event outputs, (event, outputs) ∈ steps → OnOwnConnection outputs) ↔
      ∀ before event outputs after, steps = before ++ (event, outputs) :: after →
        ∀ s', Run Sample.options {} before s' → Prompt Sample.options s' event) := by
  obtain ⟨⟨steps, s⟩, hplay, -⟩ := (Option.any_eq_true _ _).mp Sample.answeredLate_misdirected
  have hrun : Run Sample.options { files := {} } steps s := run_play hplay
  exact ⟨steps, s, hplay, replies_on_own_connection_iff hrun⟩

end PrivosCluster.Tunnel
