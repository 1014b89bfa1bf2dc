import AsrServe.DynamoOrchestration.Shim
import Mathlib.Algebra.Order.BigOperators.Group.List
import Mathlib.Data.UInt

/-!
# Frames through the shim

Whatever the order of the two tasks and the timer, the frames dispatched, pending, in the channel
and held by the ingest task are those received, in order and numbered apart.
-/

open AsrServe.Reasoning

namespace AsrServe.DynamoOrchestration.Shim

/-- The frames made of the received datagrams, in order, with their running numbers. -/
def numberedFrames (received : List (Datagram × Nat)) : List AudioFrame :=
  received.mapIdx fun i arrival ↦
    { requestId := requestId (UInt64.ofNat (i + 1))
      src := arrival.1.src
      payload := arrival.1.payload
      receivedAt := arrival.2 }

-- The frames under way, oldest first.
def State.flow (s : State) : List AudioFrame :=
  s.dispatched.flatten ++ s.batch ++ s.channel ++ s.ingest.frames

/-- Nothing is lost or invented, and the counters count. -/
structure Counted (args : Args) (s : State) : Prop where
  flow_eq : s.flow = numberedFrames s.received
  frameCounter_eq : s.frameCounter = UInt64.ofNat s.received.length
  framesReceived_eq : s.metrics.framesReceived = UInt64.ofNat s.received.length
  batchesSent_eq : s.metrics.batchesSent = UInt64.ofNat s.dispatched.length
  dispatched_sizes : ∀ batch ∈ s.dispatched, 1 ≤ batch.length ∧ batch.length ≤ max 1 args.maxBatch

/-- What holds between any two events: besides, the pending batch is not full, and the dispatcher
has only returned when everything ahead of it is gone for good. -/
structure Conserved (args : Args) (s : State) : Prop extends Counted args s where
  batch_lt : s.batch.length < max 1 args.maxBatch
  returned_empty : s.returned = true →
    s.batch = [] ∧ s.channel = [] ∧ ∃ cut, s.ingest = .dropped cut

/-! ## Counters and request ids -/

theorem requestId_injective {a b : UInt64} (h : requestId a = requestId b) : a = b := by
  rw [requestId, requestId, String.append_right_inj] at h
  -- the digits of a number give it back
  have hdigits : Nat.ofDigitChars 10 a.toNat.repr.toList 0 =
      Nat.ofDigitChars 10 b.toNat.repr.toList 0 :=
    congrArg (fun text ↦ Nat.ofDigitChars 10 text.toList 0) h
  rw [Nat.toList_repr, Nat.toList_repr, Nat.ofDigitChars_ten_toDigits,
    Nat.ofDigitChars_ten_toDigits] at hdigits
  exact UInt64.toNat_inj.mp hdigits

theorem numberedFrames_concat (received : List (Datagram × Nat)) (datagram : Datagram)
    (now : Nat) :
    numberedFrames (received ++ [(datagram, now)]) = numberedFrames received ++
      [{ requestId := requestId (UInt64.ofNat (received.length + 1))
         src := datagram.src
         payload := datagram.payload
         receivedAt := now }] := by
  rw [numberedFrames, List.mapIdx_concat]
  rfl

-- As long as the 64-bit counter does not wrap, no two frames share a request id.
theorem nodup_requestIds {received : List (Datagram × Nat)} (h : received.length < 2 ^ 64) :
    ((numberedFrames received).map (·.requestId)).Nodup := by
  rw [List.Nodup, List.pairwise_iff_getElem]
  intro i j hi hj hij heq
  rw [numberedFrames, List.length_map, List.length_mapIdx] at hi hj
  simp only [numberedFrames, List.getElem_map, List.getElem_mapIdx] at heq
  have hnat := congrArg UInt64.toNat (requestId_injective heq)
  have hsize : UInt64.size = 2 ^ 64 := rfl
  rw [UInt64.toNat_ofNat_of_lt' (by omega), UInt64.toNat_ofNat_of_lt' (by omega)] at hnat
  omega

/-! ## What each piece of a task does to the flow -/

theorem flow_recvFrom {s : State} (hingest : s.ingest = .receiving) (datagram : Datagram)
    (hcounter : s.frameCounter = UInt64.ofNat s.received.length) :
    (recvFrom s datagram).flow = s.flow ++
      [{ requestId := requestId (UInt64.ofNat (s.received.length + 1))
         src := datagram.src
         payload := datagram.payload
         receivedAt := s.now }] := by
  simp [State.flow, recvFrom, Ingest.frames, hingest, hcounter]

theorem flow_sent {s : State} {frame : AudioFrame} (hingest : s.ingest = .sending frame) :
    (sent s frame).flow = s.flow := by
  simp [State.flow, sent, Ingest.frames, hingest]

theorem flow_dispatchBatch (s : State) : (dispatchBatch s).flow = s.flow := by
  simp [State.flow, dispatchBatch]

theorem flow_push {s : State} {frame : AudioFrame} {rest : List AudioFrame}
    (hchannel : s.channel = frame :: rest) :
    State.flow { s with channel := rest, batch := s.batch ++ [frame] } = s.flow := by
  simp [State.flow, hchannel]

/-! ## Each event conserves the frames -/

variable {args : Args} {s : State}

theorem one_le_max : 0 < max 1 args.maxBatch := lt_of_lt_of_le Nat.one_pos (le_max_left ..)

theorem conserved_spawned (start : Nat) : Conserved args (.spawned args start) where
  flow_eq := rfl
  frameCounter_eq := rfl
  framesReceived_eq := rfl
  batchesSent_eq := rfl
  dispatched_sizes := fun _ hmem ↦ absurd hmem List.not_mem_nil
  batch_lt := one_le_max
  returned_empty := fun h ↦ nomatch h

-- The counts only look at the flow, the two counters and what was received and dispatched.
theorem Counted.congr (h : Counted args s) {s' : State} (hflow : s'.flow = s.flow)
    (hcounter : s'.frameCounter = s.frameCounter) (hmetrics : s'.metrics = s.metrics)
    (hreceived : s'.received = s.received) (hdispatched : s'.dispatched = s.dispatched) :
    Counted args s' where
  flow_eq := by rw [hflow, hreceived, h.flow_eq]
  frameCounter_eq := by rw [hcounter, hreceived, h.frameCounter_eq]
  framesReceived_eq := by rw [hmetrics, hreceived, h.framesReceived_eq]
  batchesSent_eq := by rw [hmetrics, hdispatched, h.batchesSent_eq]
  dispatched_sizes := by
    rw [hdispatched]
    exact h.dispatched_sizes

-- A dispatcher that has returned leaves the ingest task dropped.
theorem Conserved.returned_eq_false (h : Conserved args s)
    (hingest : ∀ cut, s.ingest ≠ .dropped cut) : s.returned = false := by
  rw [← Bool.not_eq_true]
  intro hreturned
  obtain ⟨-, -, cut, hcut⟩ := h.returned_empty hreturned
  exact hingest cut hcut

theorem Conserved.recvFrom (h : Conserved args s) (hingest : s.ingest = .receiving)
    (datagram : Datagram) : Conserved args (recvFrom s datagram) where
  flow_eq := by
    rw [flow_recvFrom hingest datagram h.frameCounter_eq, h.flow_eq]
    exact (numberedFrames_concat ..).symm
  frameCounter_eq := by simp [Shim.recvFrom, h.frameCounter_eq]
  framesReceived_eq := by simp [Shim.recvFrom, h.framesReceived_eq]
  batchesSent_eq := h.batchesSent_eq
  dispatched_sizes := h.dispatched_sizes
  batch_lt := h.batch_lt
  returned_empty := fun hreturned ↦ by
    have hrunning := h.returned_eq_false (by simp [hingest])
    exact absurd (hrunning.symm.trans hreturned) (by decide)

theorem Conserved.sent (h : Conserved args s) {frame : AudioFrame}
    (hingest : s.ingest = .sending frame) : Conserved args (sent s frame) where
  toCounted := h.toCounted.congr (flow_sent hingest) rfl rfl rfl rfl
  batch_lt := h.batch_lt
  returned_empty := fun hreturned ↦ by
    have hrunning := h.returned_eq_false (by simp [hingest])
    exact absurd (hrunning.symm.trans hreturned) (by decide)

theorem Conserved.drop (h : Conserved args s) {cut : Option AudioFrame}
    (hcut : s.ingest.frames = cut.toList) :
    Conserved args { s with ingest := .dropped cut } where
  toCounted := by
    refine h.toCounted.congr ?_ rfl rfl rfl rfl
    rw [State.flow, State.flow, hcut]
    rfl
  batch_lt := h.batch_lt
  returned_empty := fun hreturned ↦
    ⟨(h.returned_empty hreturned).1, (h.returned_empty hreturned).2.1, cut, rfl⟩

theorem Counted.dispatchBatch (h : Counted args s) (hne : 1 ≤ s.batch.length)
    (hle : s.batch.length ≤ max 1 args.maxBatch) : Counted args (dispatchBatch s) where
  flow_eq := (flow_dispatchBatch s).trans h.flow_eq
  frameCounter_eq := h.frameCounter_eq
  framesReceived_eq := h.framesReceived_eq
  batchesSent_eq := by simp [Shim.dispatchBatch, h.batchesSent_eq]
  dispatched_sizes := fun batch hmem ↦ by
    rcases List.mem_append.mp hmem with hold | hnew
    · exact h.dispatched_sizes batch hold
    · rw [List.mem_singleton.mp hnew]
      exact ⟨hne, hle⟩

-- Dispatching what is pending, if anything is.
theorem Conserved.flush (h : Conserved args s) :
    Counted args (if s.batch ≠ [] then Shim.dispatchBatch s else s) := by
  split
  · rename_i hne
    exact h.toCounted.dispatchBatch (List.length_pos_of_ne_nil hne) h.batch_lt.le
  · exact h.toCounted

theorem batch_flush (s : State) : (if s.batch ≠ [] then dispatchBatch s else s).batch = [] := by
  split
  · rfl
  · rename_i h
    exact not_not.mp h

-- A frame taken from the channel is pending, and dispatched with the batch it fills.
theorem Conserved.onFrame (h : Conserved args s) (hrunning : s.returned = false)
    {frame : AudioFrame} {rest : List AudioFrame} (hchannel : s.channel = frame :: rest) :
    Conserved args (onFrame args { s with channel := rest } frame) := by
  have hpushed : Counted args { s with channel := rest, batch := s.batch ++ [frame] } :=
    h.toCounted.congr (flow_push hchannel) rfl rfl rfl rfl
  have hlen : (s.batch ++ [frame]).length = s.batch.length + 1 := List.length_append
  have hlt := h.batch_lt
  rw [Shim.onFrame]
  dsimp only
  split
  · have hsent := hpushed.dispatchBatch (by rw [hlen]; omega) (by rw [hlen]; omega)
    exact
      { toCounted := hsent.congr rfl rfl rfl rfl rfl
        batch_lt := one_le_max
        returned_empty := fun hreturned ↦ absurd (hrunning.symm.trans hreturned) (by decide) }
  · rename_i hshort
    exact
      { toCounted := hpushed
        batch_lt := lt_of_lt_of_le (not_le.mp hshort) (le_max_right ..)
        returned_empty := fun hreturned ↦ absurd (hrunning.symm.trans hreturned) (by decide) }

-- On a closed channel the final batch is flushed and the dispatcher returns.
theorem Conserved.onClosed (h : Conserved args s) (hchannel : s.channel = [])
    {cut : Option AudioFrame} (hingest : s.ingest = .dropped cut) :
    Conserved args (onClosed s) where
  toCounted := h.flush.congr rfl rfl rfl rfl rfl
  batch_lt := (congrArg List.length (batch_flush s)).trans_lt one_le_max
  returned_empty := fun _ ↦ by
    refine ⟨batch_flush s, ?_, cut, ?_⟩
    · rw [Shim.onClosed]
      split <;> exact hchannel
    · rw [Shim.onClosed]
      split <;> exact hingest

theorem Conserved.onDeadline (h : Conserved args s) (hrunning : s.returned = false) :
    Conserved args (onDeadline args s) where
  toCounted := h.flush.congr rfl rfl rfl rfl rfl
  batch_lt := (congrArg List.length (batch_flush s)).trans_lt one_le_max
  returned_empty := fun hreturned ↦ by
    have hsame : (Shim.onDeadline args s).returned = s.returned := by
      rw [Shim.onDeadline]
      split <;> rfl
    exact absurd (hrunning.symm.trans (hsame.symm.trans hreturned)) (by decide)

/-- Every event conserves the frames. -/
theorem Conserved.step (h : Conserved args s) {event : Event} {s' : State}
    (hmoves : Moves args s event s') : Conserved args s' := by
  cases hmoves with
  | receives hingest datagram => exact h.recvFrom hingest datagram
  | fails => exact h
  | sends hingest => exact h.sent hingest
  | givesUp hingest hreturned =>
    -- the receiver outlives every send: no frame is dropped on the way into the channel
    have hrunning := h.returned_eq_false (by simp [hingest])
    exact absurd (hrunning.symm.trans hreturned) (by decide)
  | drops hcut => exact h.drop hcut
  | takes hrunning hchannel => exact h.onFrame hrunning hchannel
  | closes hrunning hchannel hingest => exact h.onClosed hchannel hingest
  | expires hrunning => exact h.onDeadline hrunning
  | ticks duration =>
    -- the clock is no part of what is conserved
    exact
      { toCounted := h.toCounted.congr rfl rfl rfl rfl rfl
        batch_lt := h.batch_lt
        returned_empty := h.returned_empty }

theorem conserved_run {start : Nat} {events : List Event}
    (hrun : runFrom (step args) (.spawned args start) events = some s) : Conserved args s :=
  run_invariant (fun _ _ _ h hstep ↦ h.step (step_moves hstep)) (conserved_spawned start) hrun

/-! ## No loss, duplication or reordering -/

-- Every dispatched batch carries a frame, so there are no more batches than frames.
theorem Counted.dispatched_length_le (h : Counted args s) :
    s.dispatched.length ≤ s.received.length := by
  have hflow : s.flow.length = s.received.length := by
    rw [h.flow_eq, numberedFrames, List.length_mapIdx]
  have hsum : s.dispatched.length ≤ s.dispatched.flatten.length := by
    rw [List.length_flatten, ← List.length_map (f := List.length)]
    apply List.length_le_sum_of_one_le
    intro n hn
    obtain ⟨batch, hmem, rfl⟩ := List.mem_map.mp hn
    exact (h.dispatched_sizes batch hmem).1
  simp only [State.flow, List.length_append] at hflow
  omega

/-- In every state the shim can reach, under any interleaving: dispatched batches, pending batch,
channel and the frame being sent are the received datagrams in order; batches are neither empty
nor too long; a dispatcher that returned has left nothing pending; and below 2^64 datagrams the
request ids are distinct and the batch counter exact. -/
theorem shim_conserves_frames (args : Args) (start : Nat) (events : List Event) (s : State)
    (hrun : runFrom (step args) (.spawned args start) events = some s) :
    s.dispatched.flatten ++ s.batch ++ s.channel ++ s.ingest.frames =
        numberedFrames s.received ∧
      (∀ batch ∈ s.dispatched, 1 ≤ batch.length ∧ batch.length ≤ max 1 args.maxBatch) ∧
      s.batch.length < max 1 args.maxBatch ∧
      (s.returned = true → s.batch = [] ∧ s.channel = []) ∧
      (s.received.length < 2 ^ 64 →
        ((numberedFrames s.received).map (·.requestId)).Nodup ∧
        s.metrics.batchesSent.toNat = s.dispatched.length) := by
  have h := conserved_run hrun
  refine ⟨h.flow_eq, h.dispatched_sizes, h.batch_lt,
    fun hreturned ↦ ⟨(h.returned_empty hreturned).1, (h.returned_empty hreturned).2.1⟩,
    fun hcount ↦ ⟨nodup_requestIds hcount, ?_⟩⟩
  have hle := h.dispatched_length_le
  rw [h.batchesSent_eq, UInt64.toNat_ofNat_of_lt' (lt_of_le_of_lt hle hcount)]

-- A datagram of four bytes from the edge.
def pcmDatagram (byte : UInt8) : Datagram where
  src := { ip := "10.0.0.1", port := 5000 }
  payload := List.replicate 4 byte
  length_le := by rw [List.length_replicate]; omega

-- Three datagrams, a full batch of two, and the third flushed by the deadline.
def threeDatagrams : List Event :=
  [.recvFrom (pcmDatagram 1), .send, .recvFrom (pcmDatagram 2), .recv, .send, .recv,
    .recvFrom (pcmDatagram 3), .send, .recv, .tick 5, .deadline, .dropIngest, .recv]

theorem threeDatagrams_conserved : ∃ s,
    runFrom (step { maxBatch := 2 }) (.spawned { maxBatch := 2 } 0) threeDatagrams = some s ∧
      s.dispatched.map List.length = [2, 1] ∧ s.returned = true ∧
      s.dispatched.flatten ++ s.batch ++ s.channel ++ s.ingest.frames =
        numberedFrames s.received := by
  refine ⟨_, rfl, by decide +kernel, by decide +kernel, ?_⟩
  exact (shim_conserves_frames { maxBatch := 2 } 0 threeDatagrams _ rfl).1

end AsrServe.DynamoOrchestration.Shim
