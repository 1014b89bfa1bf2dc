import AsrServe.DynamoOrchestration.ShimFlow

/-!
# The dispatcher without further input (`dynamo-orchestration/src/main.rs`)

What is under way gets out: once the sender is gone the dispatcher returns after as many turns of
`rx.recv()` as the channel has frames, and one more; and while the sender is there everything
received can be dispatched without another datagram.
-/

open AsrServe.Reasoning

namespace AsrServe.DynamoOrchestration.Shim

def Event.isRecv : Event → Bool
  | .recv => true
  | _ => false

-- How often the select loop takes the `rx.recv()` branch.
def recvs (events : List Event) : Nat := events.countP Event.isRecv

/-- The turns of `rx.recv()` a dispatcher without a sender has left. -/
def State.turns (s : State) : Nat := if s.returned then 0 else s.channel.length + 1

variable {args : Args} {s s' : State}

/-! ## After the sender -/

theorem recvs_concat (events : List Event) (event : Event) :
    recvs (events ++ [event]) = recvs events + if event.isRecv then 1 else 0 := by
  rw [recvs, List.countP_append, List.countP_singleton]
  rfl

theorem onFrame_channel (args : Args) (s : State) (frame : AudioFrame) :
    (onFrame args s frame).channel = s.channel ∧ (onFrame args s frame).ingest = s.ingest ∧
      (onFrame args s frame).received = s.received ∧
      (onFrame args s frame).returned = s.returned := by
  unfold onFrame
  dsimp only
  split <;> exact ⟨rfl, rfl, rfl, rfl⟩

theorem onDeadline_channel (args : Args) (s : State) :
    (onDeadline args s).channel = s.channel ∧ (onDeadline args s).ingest = s.ingest ∧
      (onDeadline args s).received = s.received ∧
      (onDeadline args s).returned = s.returned := by
  unfold onDeadline
  split <;> exact ⟨rfl, rfl, rfl, rfl⟩

theorem onClosed_ingest (s : State) :
    (onClosed s).returned = true ∧ (onClosed s).ingest = s.ingest ∧
      (onClosed s).received = s.received := by
  unfold onClosed
  split <;> exact ⟨rfl, rfl, rfl⟩

/-- Without a sender nothing but `rx.recv()` changes what is left to do. -/
theorem Moves.turns_eq {event : Event} {cut : Option AudioFrame} (hmoves : Moves args s event s')
    (hclosed : s.ingest = .dropped cut) :
    s'.ingest = .dropped cut ∧ s'.received = s.received ∧
      s'.turns + (if event.isRecv then 1 else 0) = s.turns := by
  cases hmoves with
  | receives hingest => rw [hclosed] at hingest; cases hingest
  | fails hingest => exact ⟨hclosed, rfl, rfl⟩
  | sends hingest => rw [hclosed] at hingest; cases hingest
  | givesUp hingest => rw [hclosed] at hingest; cases hingest
  | @drops cut' hcut =>
    rw [hclosed] at hcut
    refine ⟨?_, rfl, rfl⟩
    cases cut <;> cases cut' <;> cases hcut <;> rfl
  | @takes frame rest hrunning hchannel =>
    obtain ⟨hrest, hingest, hreceived, hreturned⟩ :=
      onFrame_channel args { s with channel := rest } frame
    refine ⟨hingest.trans hclosed, hreceived, ?_⟩
    rw [State.turns, State.turns, hreturned, hrest, hchannel, hrunning]
    rfl
  | closes hrunning hchannel =>
    obtain ⟨hreturned, hingest, hreceived⟩ := onClosed_ingest s
    refine ⟨hingest.trans hclosed, hreceived, ?_⟩
    rw [State.turns, State.turns, hreturned, hchannel, hrunning]
    rfl
  | expires =>
    obtain ⟨hsame, hingest, hreceived, hreturned⟩ := onDeadline_channel args s
    refine ⟨hingest.trans hclosed, hreceived, ?_⟩
    rw [State.turns, State.turns, hreturned, hsame]
    rfl
  | ticks => exact ⟨hclosed, rfl, rfl⟩

theorem turns_run {cut : Option AudioFrame} (hclosed : s.ingest = .dropped cut)
    {later : List Event} (hlater : runFrom (step args) s later = some s') :
    s'.ingest = .dropped cut ∧ s'.received = s.received ∧ s'.turns + recvs later = s.turns := by
  refine run_invariant_history (I := fun later s' ↦ s'.ingest = .dropped cut ∧
    s'.received = s.received ∧ s'.turns + recvs later = s.turns) ?_ ⟨hclosed, rfl, rfl⟩ hlater
  rintro past s₁ event s₂ ⟨hingest, hreceived, hturns⟩ hstep
  obtain ⟨hingest', hreceived', hturns'⟩ := (step_moves hstep).turns_eq hingest
  refine ⟨hingest', hreceived'.trans hreceived, ?_⟩
  rw [recvs_concat]
  omega

theorem turns_eq_zero_iff : s.turns = 0 ↔ s.returned = true := by
  rw [State.turns]
  split
  · rename_i h
    exact iff_of_true rfl h
  · rename_i h
    exact iff_of_false (Nat.succ_ne_zero _) h

-- Without a sender the dispatcher never waits for the channel.
theorem recv_ready {cut : Option AudioFrame} (hclosed : s.ingest = .dropped cut)
    (hrunning : s.returned = false) : ∃ s', step args s .recv = some s' := by
  rw [step, if_neg (by rw [hrunning]; exact Bool.false_ne_true), recv]
  cases hchannel : s.channel with
  | nil => rw [hclosed]; exact ⟨_, rfl⟩
  | cons frame rest => exact ⟨_, rfl⟩

/-- Once the sender is gone, whatever the timer does: the dispatcher always has a turn of
`rx.recv()` to take until it returns, it returns with the last frame's turn and one more, no sooner
and no later, and has then dispatched every frame received but one whose send was cut off. -/
theorem dispatcher_drains (args : Args) (start : Nat) {events : List Event} {s : State}
    (hrun : runFrom (step args) (.spawned args start) events = some s)
    {cut : Option AudioFrame} (hclosed : s.ingest = .dropped cut) {later : List Event} {s' : State}
    (hlater : runFrom (step args) s later = some s') :
    recvs later ≤ s.turns ∧ (s'.returned = true ↔ recvs later = s.turns) ∧
      (s'.returned = false → ∃ s'', step args s' .recv = some s'') ∧
      (s'.returned = true →
        s'.dispatched.flatten ++ cut.toList = numberedFrames s.received) := by
  obtain ⟨hingest, hreceived, hturns⟩ := turns_run hclosed hlater
  refine ⟨by omega, ?_, recv_ready hingest, fun hreturned ↦ ?_⟩
  · rw [← turns_eq_zero_iff]
    omega
  · have hconserved : Conserved args s' :=
      conserved_run (runFrom_append_eq_some.mpr ⟨s, hrun, hlater⟩)
    obtain ⟨hbatch, hchannel, -⟩ := hconserved.returned_empty hreturned
    have hflow := hconserved.flow_eq
    rw [State.flow, hbatch, hchannel, hingest, List.append_nil, List.append_nil] at hflow
    rw [← hreceived]
    exact hflow

-- A frame in the channel and one in the hands of `send` when the sender goes.
def cutSend : List Event :=
  [.recvFrom (pcmDatagram 1), .send, .recvFrom (pcmDatagram 2), .dropIngest]

theorem cutSend_drains : ∃ s s' cut, runFrom (step {}) (.spawned {} 0) cutSend = some s ∧
    s.ingest = .dropped cut ∧
    runFrom (step {}) s [.recv, .tick 5, .deadline, .recv] = some s' ∧ s'.returned = true ∧
    s'.dispatched.flatten ++ cut.toList = numberedFrames s.received := by
  have hreturned : ((runFrom (step {}) (.spawned {} 0) cutSend).bind fun s ↦
      (runFrom (step {}) s [.recv, .tick 5, .deadline, .recv]).map fun s' ↦
        (s.ingest.frames.length, s'.returned)) = some (1, true) := by decide +kernel
  obtain ⟨s, hrun, hreturned⟩ := Option.bind_eq_some_iff.mp hreturned
  obtain ⟨s', hlater, hreturned⟩ := Option.map_eq_some_iff.mp hreturned
  have hclosed : s.ingest = .dropped s.ingest.frames.head? := by
    cases hrun
    rfl
  have hend : s'.returned = true := congrArg Prod.snd hreturned
  exact ⟨s, s', _, hrun, hclosed, hlater, hend,
    (dispatcher_drains {} 0 hrun hclosed hlater).2.2.2 hend⟩

/-! ## With the sender -/

/-- The channel is emptied one frame at a time. -/
theorem take_all {s : State} (hrunning : s.returned = false) :
    ∃ s', runFrom (step args) s (List.replicate s.channel.length .recv) = some s' ∧
      s'.channel = [] ∧ s'.ingest = s.ingest ∧ s'.received = s.received ∧ s'.returned = false := by
  induction hchannel : s.channel generalizing s with
  | nil => exact ⟨s, rfl, hchannel, rfl, rfl, hrunning⟩
  | cons frame rest ih =>
    obtain ⟨hrest, hingest, hreceived, hreturned⟩ :=
      onFrame_channel args { s with channel := rest } frame
    obtain ⟨s', hrun, hempty, hingest', hreceived', hrunning'⟩ :=
      ih (hreturned.trans hrunning) hrest
    refine ⟨s', ?_, hempty, hingest'.trans hingest, hreceived'.trans hreceived, hrunning'⟩
    rw [List.length_cons, List.replicate_succ, runFrom_cons_eq_some]
    refine ⟨onFrame args { s with channel := rest } frame, ?_, hrun⟩
    rw [step, if_neg (by rw [hrunning]; exact Bool.false_ne_true), recv, hchannel]

-- The frame `send` is waiting with goes through an empty channel.
theorem take_sending (hcapacity : 0 < args.capacity) {s : State} {frame : AudioFrame}
    (hsending : s.ingest = .sending frame) (hrunning : s.returned = false)
    (hempty : s.channel = []) :
    ∃ s', runFrom (step args) s [.send, .recv] = some s' ∧ s'.channel = [] ∧
      s'.ingest = .receiving ∧ s'.received = s.received ∧ s'.returned = false := by
  obtain ⟨hchannel, hingest, hreceived, hreturned⟩ :=
    onFrame_channel args { sent s frame with channel := [] } frame
  refine ⟨onFrame args { sent s frame with channel := [] } frame, ?_, hchannel, hingest, hreceived,
    hreturned.trans hrunning⟩
  have hroom : s.returned = false ∧ s.channel.length < args.capacity :=
    ⟨hrunning, by rw [hempty]; exact hcapacity⟩
  have hsend : step args s .send = some (sent s frame) := by
    rw [step, hsending]
    exact if_pos hroom
  have hrecv : step args (sent s frame) .recv =
      some (onFrame args { sent s frame with channel := [] } frame) := by
    have hnot : ¬ (sent s frame).returned = true := by
      rw [show (sent s frame).returned = s.returned from rfl, hrunning]
      exact Bool.false_ne_true
    have hone : (sent s frame).channel = [frame] := by
      rw [sent, hempty]
      rfl
    rw [step, if_neg hnot, recv, hone]
  exact runFrom_cons_eq_some.mpr ⟨_, hsend, runFrom_singleton.mpr hrecv⟩

-- The timer flushes what is pending.
theorem take_batch (hrunning : s.returned = false) :
    ∃ s', runFrom (step args) s [.tick (s.deadline - s.now), .deadline] = some s' ∧
      s'.batch = [] ∧ s'.channel = s.channel ∧ s'.ingest = s.ingest ∧
        s'.received = s.received := by
  have hdue : s.returned = false ∧ s.deadline ≤ s.now + (s.deadline - s.now) :=
    ⟨hrunning, by omega⟩
  obtain ⟨hchannel, hingest, hreceived, -⟩ :=
    onDeadline_channel args { s with now := s.now + (s.deadline - s.now) }
  refine ⟨onDeadline args { s with now := s.now + (s.deadline - s.now) }, ?_, ?_, hchannel,
    hingest, hreceived⟩
  · refine runFrom_cons_eq_some.mpr ⟨_, rfl, runFrom_singleton.mpr ?_⟩
    exact if_pos hdue
  · exact batch_flush { s with now := s.now + (s.deadline - s.now) }

/-- From every state the running shim can get into, the two tasks can finish what is under way
without another datagram: at most four steps more than there are frames in the channel, and every
frame received has been dispatched. -/
theorem shim_can_finish (args : Args) (hcapacity : 0 < args.capacity) (start : Nat)
    {events : List Event} {s : State}
    (hrun : runFrom (step args) (.spawned args start) events = some s)
    (halive : ∀ cut, s.ingest ≠ .dropped cut) :
    ∃ later s', runFrom (step args) s later = some s' ∧ later.length ≤ s.channel.length + 4 ∧
      (∀ datagram, .recvFrom datagram ∉ later) ∧
      s'.dispatched.flatten = numberedFrames s.received := by
  have hrunning : s.returned = false := (conserved_run hrun).returned_eq_false halive
  obtain ⟨s₁, hrun₁, hempty₁, hingest₁, hreceived₁, hrunning₁⟩ := @take_all args _ hrunning
  -- the channel is empty, and then so are the hands of `send`
  obtain ⟨later, s₂, hrun₂, hlength, hnone, hempty₂, hingest₂, hreceived₂, hrunning₂⟩ :
      ∃ later s₂, runFrom (step args) s later = some s₂ ∧ later.length ≤ s.channel.length + 2 ∧
        (∀ datagram, .recvFrom datagram ∉ later) ∧ s₂.channel = [] ∧ s₂.ingest = .receiving ∧
        s₂.received = s.received ∧ s₂.returned = false := by
    have hnone : ∀ datagram, Event.recvFrom datagram ∉ List.replicate s.channel.length .recv := by
      intro datagram hmem
      cases (List.mem_replicate.mp hmem).2
    cases hingest : s.ingest with
    | receiving =>
      refine ⟨_, s₁, hrun₁, ?_, hnone, hempty₁, hingest₁.trans hingest, hreceived₁, hrunning₁⟩
      rw [List.length_replicate]
      omega
    | sending frame =>
      obtain ⟨s₂, hrun₂, hempty₂, hingest₂, hreceived₂, hrunning₂⟩ :=
        take_sending hcapacity (hingest₁.trans hingest) hrunning₁ hempty₁
      refine ⟨_, s₂, runFrom_append_eq_some.mpr ⟨s₁, hrun₁, hrun₂⟩, ?_, ?_, hempty₂, hingest₂,
        hreceived₂.trans hreceived₁, hrunning₂⟩
      · rw [List.length_append, List.length_replicate]
        exact Nat.le_refl _
      · intro datagram hmem
        rcases List.mem_append.mp hmem with hmem | hmem
        · exact hnone datagram hmem
        · simp at hmem
    | dropped cut => exact absurd hingest (halive cut)
  obtain ⟨s₃, hrun₃, hbatch, hchannel₃, hingest₃, hreceived₃⟩ := @take_batch args _ hrunning₂
  have hall := runFrom_append_eq_some.mpr ⟨s₂, hrun₂, hrun₃⟩
  refine ⟨_, s₃, hall, ?_, ?_, ?_⟩
  · rw [List.length_append, List.length_cons, List.length_singleton]
    omega
  · intro datagram hmem
    rcases List.mem_append.mp hmem with hmem | hmem
    · exact hnone datagram hmem
    · simp at hmem
  · have hflow := (conserved_run (runFrom_append_eq_some.mpr ⟨s, hrun, hall⟩)).flow_eq
    rw [State.flow, hbatch, hchannel₃, hempty₂, hingest₃, hingest₂, hreceived₃, hreceived₂] at hflow
    simpa [Ingest.frames] using hflow

theorem cutSend_can_finish : ∃ s, runFrom (step {}) (.spawned {} 0) (cutSend.take 3) = some s ∧
    ∃ later s', runFrom (step {}) s later = some s' ∧
      s'.dispatched.flatten = numberedFrames s.received := by
  have hrun : ((runFrom (step {}) (.spawned {} 0) (cutSend.take 3)).map fun s ↦
      s.ingest.frames.length) = some 1 := by decide +kernel
  obtain ⟨s, hrun, -⟩ := Option.map_eq_some_iff.mp hrun
  have halive : ∀ cut, s.ingest ≠ .dropped cut := by
    cases hrun
    intro cut h
    cases h
  obtain ⟨later, s', hlater, -, -, hdispatched⟩ := shim_can_finish {} (by decide) 0 hrun halive
  exact ⟨s, hrun, later, s', hlater, hdispatched⟩

end AsrServe.DynamoOrchestration.Shim
