import AsrServe.DynamoOrchestration.ShimFlow

/-!
# How long a frame waits in the batch

The dispatcher's timer against the frames it holds, with a record of when each frame was taken from
the channel.
-/

open AsrServe.Reasoning

namespace AsrServe.DynamoOrchestration.Shim

/-- The shim with every frame taken from the channel so far and when. -/
structure Logged where
  state : State
  taken : List (AudioFrame × Nat)

def Logged.spawned (args : Args) (start : Nat) : Logged where
  state := .spawned args start
  taken := []

-- The frame an event takes from the channel.
def State.takes (s : State) : Event → Option AudioFrame
  | .recv => s.channel.head?
  | _ => none

namespace Logged

def step (args : Args) (l : Logged) (event : Event) : Option Logged :=
  (Shim.step args l.state event).map fun s ↦
    { state := s
      taken := l.taken ++ (l.state.takes event).toList.map fun frame ↦ (frame, l.state.now) }

/-- The frames taken and not dispatched yet. -/
def pending (l : Logged) : List (AudioFrame × Nat) :=
  l.taken.drop l.state.dispatched.flatten.length

end Logged

/-! ## One step -/

variable {args : Args} {s s' : State}

/-- The frames of the batch stay where they are, under the same timer. -/
structure Keeps (s s' : State) : Prop where
  deadline_eq : s'.deadline = s.deadline
  dispatched_eq : s'.dispatched = s.dispatched
  batch_prefix : s.batch <+: s'.batch

/-- The batch is empty afterwards; its frames and perhaps one more have been dispatched. -/
structure Flushes (s s' : State) : Prop where
  batch_eq : s'.batch = []
  dispatched_eq : ∃ more, s'.dispatched.flatten = s.dispatched.flatten ++ s.batch ++ more

theorem flatten_flush (s : State) :
    (if s.batch ≠ [] then dispatchBatch s else s).dispatched.flatten =
      s.dispatched.flatten ++ s.batch := by
  split
  · simp [dispatchBatch]
  · rename_i hempty
    rw [not_not.mp hempty, List.append_nil]

theorem flushes_onClosed (s : State) : Flushes s (onClosed s) := by
  refine ⟨batch_flush s, [], ?_⟩
  rw [List.append_nil]
  exact flatten_flush s

theorem flushes_onDeadline (args : Args) (s : State) : Flushes s (onDeadline args s) := by
  refine ⟨batch_flush s, [], ?_⟩
  rw [List.append_nil]
  exact flatten_flush s

theorem onFrame_keeps_or_flushes (args : Args) (s : State) (frame : AudioFrame)
    (rest : List AudioFrame) :
    Keeps s (onFrame args { s with channel := rest } frame) ∨
      Flushes s (onFrame args { s with channel := rest } frame) := by
  rw [onFrame]
  dsimp only
  split
  · refine .inr ⟨rfl, [frame], ?_⟩
    simp [resetDeadline, dispatchBatch]
  · exact .inl ⟨rfl, rfl, List.prefix_append ..⟩

/-- Only a step that flushes the batch arms the timer anew, and the timer firing is one. -/
theorem Moves.keeps_or_flushes {event : Event} (h : Moves args s event s') :
    Keeps s s' ∧ event ≠ .deadline ∨ Flushes s s' := by
  cases h with
  | receives _ datagram => exact .inl ⟨⟨rfl, rfl, List.prefix_rfl⟩, nofun⟩
  | fails _ => exact .inl ⟨⟨rfl, rfl, List.prefix_rfl⟩, nofun⟩
  | sends _ _ _ => exact .inl ⟨⟨rfl, rfl, List.prefix_rfl⟩, nofun⟩
  | givesUp _ _ => exact .inl ⟨⟨rfl, rfl, List.prefix_rfl⟩, nofun⟩
  | drops _ => exact .inl ⟨⟨rfl, rfl, List.prefix_rfl⟩, nofun⟩
  | takes _ _ => exact (onFrame_keeps_or_flushes ..).imp (fun h ↦ ⟨h, nofun⟩) id
  | closes _ _ _ => exact .inr (flushes_onClosed s)
  | expires _ _ => exact .inr (flushes_onDeadline args s)
  | ticks duration => exact .inl ⟨⟨rfl, rfl, List.prefix_rfl⟩, nofun⟩

/-! ## The timer against the frames it holds -/

theorem Logged.step_eq_some {l l' : Logged} {event : Event} :
    l.step args event = some l' ↔ ∃ s, Shim.step args l.state event = some s ∧
      l' = { state := s
             taken := l.taken ++
               (l.state.takes event).toList.map fun frame ↦ (frame, l.state.now) } := by
  rw [Logged.step, Option.map_eq_some_iff]
  constructor
  · rintro ⟨s, hs, rfl⟩
    exact ⟨s, hs, rfl⟩
  · rintro ⟨s, hs, rfl⟩
    exact ⟨s, hs, rfl⟩

theorem Logged.map_pending {l : Logged}
    (htaken : l.taken.map (·.1) = l.state.dispatched.flatten ++ l.state.batch) :
    l.pending.map (·.1) = l.state.batch := by
  rw [Logged.pending, List.map_drop, htaken, List.drop_left]

/-- The frames taken are those dispatched and those pending, and the timer is never later than
one timeout after now, nor than one timeout after any pending frame was taken. -/
structure OnTime (args : Args) (l : Logged) : Prop where
  taken_eq : l.taken.map (·.1) = l.state.dispatched.flatten ++ l.state.batch
  deadline_le_now : l.state.deadline ≤ l.state.now + args.batchTimeout
  deadline_le_taken : ∀ p ∈ l.pending, l.state.deadline ≤ p.2 + args.batchTimeout

-- A step sends nothing on but what it takes from the channel.
theorem Moves.taken_eq {event : Event} (h : Moves args s event s') :
    s'.dispatched.flatten ++ s'.batch =
      s.dispatched.flatten ++ s.batch ++ (s.takes event).toList := by
  cases h with
  | receives _ datagram => exact (List.append_nil _).symm
  | fails _ => exact (List.append_nil _).symm
  | sends _ _ _ => exact (List.append_nil _).symm
  | givesUp _ _ => exact (List.append_nil _).symm
  | drops _ => exact (List.append_nil _).symm
  | takes _ hchannel =>
    rw [State.takes, hchannel, onFrame]
    dsimp only
    split <;> simp [resetDeadline, dispatchBatch]
  | closes _ hchannel _ =>
    rw [State.takes, hchannel, (flushes_onClosed s).batch_eq]
    exact congrArg (· ++ []) (flatten_flush s)
  | expires _ _ =>
    rw [(flushes_onDeadline args s).batch_eq]
    exact congrArg (· ++ []) (flatten_flush s)
  | ticks duration => exact (List.append_nil _).symm

theorem Moves.deadline_le_now {event : Event} (h : Moves args s event s')
    (hle : s.deadline ≤ s.now + args.batchTimeout) :
    s'.deadline ≤ s'.now + args.batchTimeout := by
  cases h with
  | receives _ datagram => exact hle
  | fails _ => exact hle
  | sends _ _ _ => exact hle
  | givesUp _ _ => exact hle
  | drops _ => exact hle
  | takes _ _ =>
    rw [onFrame]
    dsimp only
    split
    · exact le_rfl
    · exact hle
  | closes _ _ _ =>
    rw [onClosed]
    split <;> exact hle
  | expires _ _ => exact le_rfl
  | ticks duration =>
    show s.deadline ≤ s.now + duration + args.batchTimeout
    omega

theorem onTime_spawned (start : Nat) : OnTime args (.spawned args start) where
  taken_eq := rfl
  deadline_le_now := le_rfl
  deadline_le_taken := fun _ hmem ↦ absurd hmem List.not_mem_nil

namespace OnTime

variable {l l' : Logged}

theorem length_taken (h : OnTime args l) :
    l.taken.length = l.state.dispatched.flatten.length + l.state.batch.length := by
  rw [← List.length_map, h.taken_eq, List.length_append]

theorem map_pending (h : OnTime args l) : l.pending.map (·.1) = l.state.batch :=
  Logged.map_pending h.taken_eq

/-- A frame is taken at a time the timer is at most one timeout ahead of; the timer only moves
when no frame is left to wait for it. -/
theorem step (h : OnTime args l) {event : Event} (hstep : l.step args event = some l') :
    OnTime args l' := by
  obtain ⟨s, hs, hl'⟩ := Logged.step_eq_some.mp hstep
  have hmoves := step_moves hs
  have htaken : l'.taken.map (·.1) = l'.state.dispatched.flatten ++ l'.state.batch := by
    rw [hl', List.map_append, h.taken_eq, List.map_map, hmoves.taken_eq]
    exact congrArg _ (List.map_id _)
  refine ⟨htaken, ?_, fun p hp ↦ ?_⟩
  · rw [hl']
    exact hmoves.deadline_le_now h.deadline_le_now
  · rcases hmoves.keeps_or_flushes with ⟨hkeeps, -⟩ | hflushes
    · have hlen : l.state.dispatched.flatten.length ≤ l.taken.length := by
        have := h.length_taken
        omega
      rw [hl', Logged.pending, hkeeps.dispatched_eq, List.drop_append_of_le_length hlen,
        List.mem_append] at hp
      rw [hl', hkeeps.deadline_eq]
      rcases hp with hold | hnew
      · exact h.deadline_le_taken p hold
      · obtain ⟨frame, -, rfl⟩ := List.mem_map.mp hnew
        exact h.deadline_le_now
    · have hnone : l'.pending = [] := by
        rw [← List.map_eq_nil_iff, Logged.map_pending htaken, hl', hflushes.batch_eq]
      rw [hnone] at hp
      exact absurd hp List.not_mem_nil

end OnTime

/-! ## Whole runs -/

theorem onTime_run {start : Nat} {events : List Event} {l : Logged}
    (hrun : runFrom (Logged.step args) (.spawned args start) events = some l) : OnTime args l :=
  run_invariant (fun _ _ _ h hstep ↦ h.step hstep) (onTime_spawned start) hrun

-- Writing down when frames are taken does not change the run.
theorem Logged.run_state {l l' : Logged} {events : List Event}
    (hrun : runFrom (Logged.step args) l events = some l') :
    runFrom (Shim.step args) l.state events = some l'.state := by
  refine run_invariant_history (I := fun past m ↦ runFrom (Shim.step args) l.state past =
    some m.state) (fun past m event m' hpast hstep ↦ ?_) rfl hrun
  obtain ⟨s, hs, rfl⟩ := Logged.step_eq_some.mp hstep
  exact runFrom_concat_eq_some.mpr ⟨m.state, hpast, hs⟩

/-- The frames `l` holds are still waiting for the timer `l` shows, which has not fired. -/
structure Waiting (l : Logged) (later : List Event) (l' : Logged) : Prop where
  keeps : Keeps l.state l'.state
  not_fired : .deadline ∉ later

/-- The frames `l` holds have all been dispatched, in order and before any later one. -/
def Sent (l l' : Logged) : Prop :=
  l.state.dispatched.flatten ++ l.state.batch <+: l'.state.dispatched.flatten

-- What has been dispatched stays dispatched.
theorem Moves.dispatched_prefix {event : Event} (h : Moves args s event s') :
    s.dispatched.flatten <+: s'.dispatched.flatten := by
  rcases h.keeps_or_flushes with ⟨hkeeps, -⟩ | hflushes
  · rw [hkeeps.dispatched_eq]
  · obtain ⟨more, hmore⟩ := hflushes.dispatched_eq
    rw [hmore, List.append_assoc]
    exact List.prefix_append ..

/-- Whatever happens later, the frames wait under the same timer until they are dispatched. -/
theorem waiting_or_sent {l l' : Logged} {later : List Event}
    (hrun : runFrom (Logged.step args) l later = some l') :
    Waiting l later l' ∨ Sent l l' := by
  refine run_invariant_history (I := fun past m ↦ Waiting l past m ∨ Sent l m)
    (fun past m event m' hpast hstep ↦ ?_)
    (.inl ⟨⟨rfl, rfl, List.prefix_rfl⟩, List.not_mem_nil⟩) hrun
  obtain ⟨s, hs, rfl⟩ := Logged.step_eq_some.mp hstep
  have hmoves := step_moves hs
  rcases hpast with ⟨hkept, hpast⟩ | hsent
  · rcases hmoves.keeps_or_flushes with ⟨hkeeps, hevent⟩ | hflushes
    · refine .inl ⟨⟨?_, ?_, ?_⟩, ?_⟩
      · exact hkeeps.deadline_eq.trans hkept.deadline_eq
      · exact hkeeps.dispatched_eq.trans hkept.dispatched_eq
      · exact hkept.batch_prefix.trans hkeeps.batch_prefix
      · rw [List.mem_append, List.mem_singleton, not_or]
        exact ⟨hpast, hevent.symm⟩
    · obtain ⟨more, hmore⟩ := hflushes.dispatched_eq
      right
      show _ <+: s.dispatched.flatten
      rw [hmore, hkept.dispatched_eq]
      apply List.IsPrefix.trans _ (List.prefix_append ..)
      exact (List.prefix_append_right_inj _).mpr hkept.batch_prefix
  · exact .inr (hsent.trans hmoves.dispatched_prefix)

/-- In every state the dispatcher can reach: no pending frame was taken earlier than one timeout
before the armed deadline; the timer is armed anew only by a step that has dispatched what was
pending; from here on the pending frames wait under this very timer until they are dispatched;
and once it is due it can fire and dispatch them. -/
theorem batch_latency (args : Args) (start : Nat) (events : List Event) (l : Logged)
    (hrun : runFrom (Logged.step args) (.spawned args start) events = some l) :
    l.pending.map (·.1) = l.state.batch ∧
      (∀ p ∈ l.pending, l.state.deadline ≤ p.2 + args.batchTimeout) ∧
      (∀ event l', l.step args event = some l' →
        l'.state.deadline = l.state.deadline ∨ Flushes l.state l'.state) ∧
      (∀ later l', runFrom (Logged.step args) l later = some l' →
        Waiting l later l' ∨ Sent l l') ∧
      (l.state.batch ≠ [] → l.state.deadline ≤ l.state.now → ∃ l',
        l.step args .deadline = some l' ∧
          l'.state.dispatched = l.state.dispatched ++ [l.state.batch]) := by
  have h := onTime_run hrun
  refine ⟨h.map_pending, h.deadline_le_taken, fun event l' hstep ↦ ?_,
    fun later l' hlater ↦ waiting_or_sent hlater, fun hbatch hdue ↦ ?_⟩
  · obtain ⟨s, hs, rfl⟩ := Logged.step_eq_some.mp hstep
    exact (step_moves hs).keeps_or_flushes.imp (fun hkeeps ↦ hkeeps.1.deadline_eq) id
  · have hrunning : l.state.returned = false := by
      rw [← Bool.not_eq_true]
      intro hreturned
      exact hbatch ((conserved_run (Logged.run_state hrun)).returned_empty hreturned).1
    have hs : Shim.step args l.state .deadline = some (onDeadline args l.state) := by
      rw [Shim.step, if_pos ⟨hrunning, hdue⟩]
    refine ⟨_, Logged.step_eq_some.mpr ⟨_, hs, rfl⟩, ?_⟩
    show (resetDeadline args _).dispatched = _
    rw [if_pos hbatch]
    rfl

-- The third frame is taken right before time passes: the timer armed when the first two left
-- runs out within its timeout.
theorem threeDatagrams_latency : ∃ l,
    runFrom (Logged.step { maxBatch := 2 }) (.spawned { maxBatch := 2 } 0)
      (threeDatagrams.take 10) = some l ∧
      l.pending.map (·.2) = [0] ∧ l.state.deadline = 5 ∧ l.state.now = 5 ∧
      ∀ p ∈ l.pending, l.state.deadline ≤ p.2 + 5 := by
  refine ⟨_, rfl, by decide +kernel, by decide +kernel, by decide +kernel, ?_⟩
  exact (batch_latency { maxBatch := 2 } 0 (threeDatagrams.take 10) _ rfl).2.1

end AsrServe.DynamoOrchestration.Shim
