import AsrServe.DynamoOrchestration.ShimFlow

/-!
# The end of the shim (`main` in `dynamo-orchestration/src/main.rs`)

`main` beside the two tasks it has spawned: it waits for the signal, logs and returns.  Until then
nothing drops the tasks; from then on the runtime does not run them any more.
-/

open AsrServe.Reasoning

namespace AsrServe.DynamoOrchestration.Shim

/-- Where `main` is; once the signal is there, with the number of datagrams received before it. -/
inductive Main where
  | awaitingSignal
  | signalled (received : Nat)
  | returned (received : Nat)
deriving DecidableEq, Repr

structure Process where
  main : Main
  tasks : State

def Process.started (args : Args) (start : Nat) : Process where
  main := .awaitingSignal
  tasks := .spawned args start

inductive ProcessEvent where
  | task (event : Event)
  -- SIGINT arrives.
  | signal
  -- `main` is woken up and returns.
  | mainReturns

-- The sender lives as long as the ingest task, which has no way out of its loop.
def processStep (args : Args) (p : Process) : ProcessEvent → Option Process
  | .task event =>
    match p.main, event with
    | .returned _, _ | _, .dropIngest => none
    | _, _ => (step args p.tasks event).map fun tasks ↦ { p with tasks := tasks }
  | .signal =>
    match p.main with
    | .awaitingSignal => some { p with main := .signalled p.tasks.received.length }
    | _ => none
  | .mainReturns =>
    match p.main with
    | .signalled received => some { p with main := .returned received }
    | _ => none

/-- The first `received` frames have been passed to `dispatch_batch`, in order. -/
def State.Dispatched (s : State) (received : Nat) : Prop :=
  numberedFrames (s.received.take received) <+: s.dispatched.flatten

/-- A turn of the dispatcher's select loop: it takes a frame or its deadline expires. -/
inductive Turn where
  | recv
  | deadline
deriving DecidableEq, Repr

def ProcessEvent.turn? : ProcessEvent → Option Turn
  | .task .recv => some .recv
  | .task .deadline => some .deadline
  | _ => none

-- The turns the dispatcher gets in a stretch of a run.
def turnsOf (events : List ProcessEvent) : List Turn := events.filterMap (·.turn?)

/-- How many frames a turn leaves in a batch that had `n`: a full batch and an expired deadline
empty it. -/
def turnBatch (maxBatch n : Nat) : Turn → Nat
  | .recv => if n + 1 ≥ maxBatch then 0 else n + 1
  | .deadline => 0

def batchAfter (maxBatch n : Nat) (turns : List Turn) : Nat := turns.foldl (turnBatch maxBatch) n

/-- At some point in these turns the batch is empty and as many frames have been taken as waited in
the channel and in the hands of `send` when the turns began. -/
def ClearedBy (args : Args) (s : State) (turns : List Turn) : Prop :=
  ∃ first rest, turns = first ++ rest ∧
    s.channel.length + s.ingest.frames.length ≤ first.count .recv ∧
    batchAfter args.maxBatch s.batch.length first = 0

/-! ## Dispatched frames and the dispatcher's turns -/

variable {args : Args} {s s₀ : State} {p p' : Process}

theorem numberedFrames_take (received : List (Datagram × Nat)) (n : Nat) :
    numberedFrames (received.take n) <+: numberedFrames received := by
  conv_rhs => rw [← List.take_append_drop n received]
  rw [numberedFrames, numberedFrames, List.mapIdx_append]
  exact List.prefix_append ..

-- The dispatched frames are the oldest: it is enough to count them.
theorem Conserved.dispatched_iff (h : Conserved args s) {n : Nat} (hn : n ≤ s.received.length) :
    s.Dispatched n ↔ n ≤ s.dispatched.flatten.length := by
  have hdispatched : s.dispatched.flatten <+: numberedFrames s.received := by
    rw [← h.flow_eq, State.flow, List.append_assoc, List.append_assoc]
    exact List.prefix_append ..
  have htake : (numberedFrames (s.received.take n)).length = n := by
    rw [numberedFrames, List.length_mapIdx, List.length_take]
    omega
  constructor
  · intro hprefix
    have hle := hprefix.length_le
    omega
  · intro hle
    exact List.prefix_of_prefix_length_le (numberedFrames_take s.received n) hdispatched (by omega)

theorem Conserved.received_length (h : Conserved args s) :
    s.received.length = s.dispatched.flatten.length + s.batch.length + s.channel.length +
      s.ingest.frames.length := by
  have hlen := congrArg List.length h.flow_eq
  simp only [State.flow, List.length_append] at hlen
  rw [hlen, numberedFrames, List.length_mapIdx]

theorem batchAfter_concat (maxBatch n : Nat) (turns : List Turn) (turn : Turn) :
    batchAfter maxBatch n (turns ++ [turn]) = turnBatch maxBatch (batchAfter maxBatch n turns) turn
    := by
  rw [batchAfter, List.foldl_append]
  rfl

-- What is in the batch at the end has been taken in these turns or was there before them.
theorem batchAfter_le (maxBatch n : Nat) (turns : List Turn) :
    batchAfter maxBatch n turns ≤ n + turns.count .recv := by
  induction turns using List.reverseRecOn with
  | nil => exact Nat.le_refl _
  | append_singleton turns turn ih =>
    rw [batchAfter_concat, List.count_append]
    cases turn with
    | recv =>
      have hone : [Turn.recv].count .recv = 1 := rfl
      rw [turnBatch, hone]
      split <;> omega
    | deadline => exact Nat.zero_le _

/-- Counted at the end of the turns: more frames have been taken than are in the batch, by as many
as waited at first, just when the batch was empty at some point behind the last of them. -/
theorem waiting_le_iff {maxBatch n waiting : Nat} {turns : List Turn} :
    waiting + batchAfter maxBatch n turns ≤ turns.count .recv ↔
      ∃ first rest, turns = first ++ rest ∧ waiting ≤ first.count .recv ∧
        batchAfter maxBatch n first = 0 := by
  constructor
  · intro hle
    induction turns using List.reverseRecOn with
    | nil =>
      refine ⟨[], [], rfl, ?_, ?_⟩
      · exact le_trans (Nat.le_add_right ..) hle
      · exact Nat.eq_zero_of_le_zero (le_trans (Nat.le_add_left ..) hle)
    | append_singleton turns turn ih =>
      by_cases hempty : batchAfter maxBatch n (turns ++ [turn]) = 0
      · exact ⟨turns ++ [turn], [], (List.append_nil _).symm, by omega, hempty⟩
      · -- the last turn has added one frame to the batch and to those taken
        rw [batchAfter_concat] at hle hempty
        rw [List.count_append] at hle
        have hbefore : waiting + batchAfter maxBatch n turns ≤ turns.count .recv := by
          cases turn with
          | recv =>
            rw [turnBatch] at hle hempty
            split at hle
            · rename_i hfull
              exact absurd (if_pos hfull) hempty
            · change _ ≤ _ + 1 at hle
              omega
          | deadline => exact absurd rfl hempty
        obtain ⟨first, rest, rfl, hfirst, hzero⟩ := ih hbefore
        exact ⟨first, rest ++ [turn], List.append_assoc .., hfirst, hzero⟩
  · rintro ⟨first, rest, rfl, hfirst, hzero⟩
    have hrest := batchAfter_le maxBatch 0 rest
    rw [batchAfter, List.foldl_append, ← batchAfter, ← batchAfter, hzero, List.count_append]
    omega

/-- What the dispatcher has done since `s₀`, in these turns. -/
structure Since (args : Args) (s₀ s : State) (turns : List Turn) : Prop where
  batch_eq : s.batch.length = batchAfter args.maxBatch s₀.batch.length turns
  taken_eq : s.dispatched.flatten.length + s.batch.length =
    s₀.dispatched.flatten.length + s₀.batch.length + turns.count .recv
  received_le : s₀.received.length ≤ s.received.length

theorem since_refl : Since args s s [] where
  batch_eq := rfl
  taken_eq := rfl
  received_le := Nat.le_refl _

-- An event of another kind leaves the batch and what has been dispatched.
theorem Since.congr {turns : List Turn} (h : Since args s₀ s turns) {s' : State}
    (hbatch : s'.batch = s.batch) (hdispatched : s'.dispatched = s.dispatched)
    (hreceived : s.received.length ≤ s'.received.length) : Since args s₀ s' turns where
  batch_eq := by rw [hbatch, h.batch_eq]
  taken_eq := by rw [hbatch, hdispatched, h.taken_eq]
  received_le := le_trans h.received_le hreceived

theorem Since.onFrame {turns : List Turn} (h : Since args s₀ s turns) (rest : List AudioFrame)
    (frame : AudioFrame) :
    Since args s₀ (onFrame args { s with channel := rest } frame) (turns ++ [.recv]) := by
  have hcount : (turns ++ [Turn.recv]).count .recv = turns.count .recv + 1 := by
    rw [List.count_append]
    rfl
  have hlen : (s.batch ++ [frame]).length = s.batch.length + 1 := List.length_append
  have htaken := h.taken_eq
  have hbatch := h.batch_eq
  rw [Shim.onFrame]
  dsimp only
  split
  · rename_i hfull
    constructor
    · rw [batchAfter_concat, ← hbatch, turnBatch, if_pos (by omega)]
      rfl
    · show (s.dispatched ++ [s.batch ++ [frame]]).flatten.length + 0 = _
      rw [List.flatten_append, List.length_append, List.flatten_singleton, hlen, hcount]
      omega
    · exact h.received_le
  · rename_i hshort
    constructor
    · rw [batchAfter_concat, ← hbatch, turnBatch, if_neg (by omega)]
      exact hlen
    · show s.dispatched.flatten.length + (s.batch ++ [frame]).length = _
      rw [hlen, hcount]
      omega
    · exact h.received_le

theorem onDeadline_received (args : Args) (s : State) :
    (Shim.onDeadline args s).received = s.received := by
  unfold Shim.onDeadline
  split <;> rfl

theorem Since.onDeadline {turns : List Turn} (h : Since args s₀ s turns) :
    Since args s₀ (onDeadline args s) (turns ++ [.deadline]) := by
  have hcount : (turns ++ [Turn.deadline]).count .recv = turns.count .recv := by
    rw [List.count_append]
    rfl
  have htaken := h.taken_eq
  constructor
  · rw [batchAfter_concat]
    exact congrArg List.length (batch_flush s)
  · have hflushed : (if s.batch ≠ [] then dispatchBatch s else s).dispatched.flatten.length =
        s.dispatched.flatten.length + s.batch.length := by
      split
      · show (s.dispatched ++ [s.batch]).flatten.length = _
        rw [List.flatten_append, List.length_append, List.flatten_singleton]
      · rename_i hempty
        rw [not_not.mp hempty]
        rfl
    show (if s.batch ≠ [] then dispatchBatch s else s).dispatched.flatten.length +
      (if s.batch ≠ [] then dispatchBatch s else s).batch.length = _
    rw [hflushed, batch_flush, hcount, ← htaken]
    rfl
  · rw [onDeadline_received]
    exact h.received_le

theorem Since.step {turns : List Turn} (h : Since args s₀ s turns) {event : Event} {s' : State}
    (hmoves : Moves args s event s') (halive : ∀ cut, s.ingest ≠ .dropped cut) :
    Since args s₀ s' (turns ++ (ProcessEvent.task event).turn?.toList) := by
  cases hmoves with
  | takes hrunning hchannel => exact h.onFrame _ _
  | expires hrunning hdue => exact h.onDeadline
  | closes hrunning hchannel hingest => exact absurd hingest (halive _)
  | receives hingest datagram =>
    refine (List.append_nil turns).symm ▸ h.congr rfl rfl ?_
    show s.received.length ≤ (s.received ++ [(datagram, s.now)]).length
    rw [List.length_append]
    exact Nat.le_add_right ..
  | _ => exact (List.append_nil turns).symm ▸ h.congr rfl rfl (Nat.le_refl _)

/-! ## Runs of the whole process -/

/-- The steps of the process with what each of them is preceded by. -/
inductive ProcessMoves (args : Args) (p : Process) : ProcessEvent → Process → Prop where
  | task {event : Event} {tasks : State} (hmain : ∀ received, p.main ≠ .returned received)
      (hevent : event ≠ .dropIngest) (hmoves : Moves args p.tasks event tasks) :
      ProcessMoves args p (.task event) { p with tasks := tasks }
  | signal (hmain : p.main = .awaitingSignal) :
      ProcessMoves args p .signal { p with main := .signalled p.tasks.received.length }
  | mainReturns {received : Nat} (hmain : p.main = .signalled received) :
      ProcessMoves args p .mainReturns { p with main := .returned received }

theorem processStep_moves {event : ProcessEvent} (hstep : processStep args p event = some p') :
    ProcessMoves args p event p' := by
  cases event with
  | task event =>
    simp only [processStep] at hstep
    split at hstep
    · cases hstep
    · cases hstep
    · rename_i hdrop hreturned
      obtain ⟨tasks, htasks, rfl⟩ := Option.map_eq_some_iff.mp hstep
      exact .task hreturned hdrop (step_moves htasks)
  | signal =>
    simp only [processStep] at hstep
    split at hstep
    · cases hstep
      exact .signal ‹_›
    · cases hstep
  | mainReturns =>
    simp only [processStep] at hstep
    split at hstep
    · cases hstep
      exact .mainReturns ‹_›
    · cases hstep

/-- Besides the conservation of frames: the sender is alive. -/
structure Running (args : Args) (p : Process) : Prop where
  conserved : Conserved args p.tasks
  alive : ∀ cut, p.tasks.ingest ≠ .dropped cut

theorem onFrame_ingest (args : Args) (s : State) (frame : AudioFrame) :
    (onFrame args s frame).ingest = s.ingest := by
  unfold onFrame
  dsimp only
  split <;> rfl

theorem onDeadline_ingest (args : Args) (s : State) : (onDeadline args s).ingest = s.ingest := by
  unfold onDeadline
  split <;> rfl

-- A task event that is not the end of the ingest task keeps the sender.
theorem Moves.alive {event : Event} {s' : State} (hmoves : Moves args s event s')
    (halive : ∀ cut, s.ingest ≠ .dropped cut) (hevent : event ≠ .dropIngest) :
    ∀ cut, s'.ingest ≠ .dropped cut := by
  intro cut
  cases hmoves with
  | receives hingest datagram => exact fun h ↦ by cases h
  | fails => exact halive cut
  | sends => exact fun h ↦ by cases h
  | givesUp => exact fun h ↦ by cases h
  | drops => exact absurd rfl hevent
  | takes hrunning hchannel =>
    rw [onFrame_ingest]
    exact halive cut
  | closes hrunning hchannel hingest => exact absurd hingest (halive _)
  | expires =>
    rw [onDeadline_ingest]
    exact halive cut
  | ticks => exact halive cut

theorem Running.step (h : Running args p) {event : ProcessEvent}
    (hmoves : ProcessMoves args p event p') : Running args p' := by
  cases hmoves with
  | task _ hevent hmoves => exact ⟨h.conserved.step hmoves, hmoves.alive h.alive hevent⟩
  | signal _ => exact ⟨h.conserved, h.alive⟩
  | mainReturns _ => exact ⟨h.conserved, h.alive⟩

theorem running_run {start : Nat} {events : List ProcessEvent}
    (hrun : runFrom (processStep args) (.started args start) events = some p) :
    Running args p := by
  apply run_invariant (fun _ _ _ h hstep ↦ h.step (processStep_moves hstep)) _ hrun
  exact ⟨conserved_spawned start, fun cut h ↦ by cases h⟩

/-! ## The run since the signal -/

def Main.received? : Main → Option Nat
  | .awaitingSignal => none
  | .signalled received | .returned received => some received

-- What a run ends with because `main` has returned.
def Main.closing : Main → List ProcessEvent
  | .returned _ => [.mainReturns]
  | _ => []

/-- The run up to the signal and from it on, with what the dispatcher has done since. -/
def CutAtSignal (args : Args) (start : Nat) (past : List ProcessEvent) (p : Process)
    (received : Nat) : Prop :=
  ∃ before between p₀, past = before ++ .signal :: (between ++ p.main.closing) ∧
    runFrom (processStep args) (.started args start) before = some p₀ ∧
    p₀.tasks.received.length = received ∧ Since args p₀.tasks p.tasks (turnsOf between)

theorem turnsOf_concat (events : List ProcessEvent) (event : ProcessEvent) :
    turnsOf (events ++ [event]) = turnsOf events ++ event.turn?.toList := by
  rw [turnsOf, List.filterMap_append]
  cases hturn : event.turn? <;> simp [turnsOf, hturn]

theorem cutAtSignal_step {start : Nat} {past : List ProcessEvent} {event : ProcessEvent}
    (hpast : runFrom (processStep args) (.started args start) past = some p)
    (hcut : ∀ received, p.main.received? = some received →
      CutAtSignal args start past p received)
    (hmoves : ProcessMoves args p event p') {received : Nat}
    (hreceived : p'.main.received? = some received) :
    CutAtSignal args start (past ++ [event]) p' received := by
  have halive := (running_run hpast).alive
  cases hmoves with
  | @task event _ hmain _ hmoves =>
    obtain ⟨before, between, p₀, rfl, hbefore, hlen, hsince⟩ := hcut received hreceived
    have hopen : p.main.closing = [] := by
      cases hphase : p.main with
      | returned n => exact absurd hphase (hmain n)
      | _ => rfl
    refine ⟨before, between ++ [.task event], p₀, ?_, hbefore, hlen, ?_⟩
    · simp [hopen]
    · rw [turnsOf_concat]
      exact hsince.step hmoves halive
  | signal _ =>
    cases hreceived
    exact ⟨past, [], p, rfl, hpast, rfl, since_refl⟩
  | mainReturns hmain =>
    have hsignalled : p.main.received? = some received := by
      rw [hmain]
      exact hreceived
    obtain ⟨before, between, p₀, rfl, hbefore, hlen, hsince⟩ := hcut received hsignalled
    refine ⟨before, between, p₀, ?_, hbefore, hlen, hsince⟩
    simp [hmain, Main.closing]

theorem cutAtSignal_run {start : Nat} {events : List ProcessEvent}
    (hrun : runFrom (processStep args) (.started args start) events = some p) {received : Nat}
    (hreceived : p.main.received? = some received) : CutAtSignal args start events p received := by
  have hinv : runFrom (processStep args) (.started args start) events = some p ∧
      ∀ received, p.main.received? = some received →
        CutAtSignal args start events p received := by
    refine run_invariant_history (I := fun past p ↦
      runFrom (processStep args) (.started args start) past = some p ∧
        ∀ received, p.main.received? = some received →
          CutAtSignal args start past p received) ?_ ⟨rfl, fun _ h ↦ by cases h⟩ hrun
    intro past p event p' h hstep
    refine ⟨runFrom_concat_eq_some.mpr ⟨p, h.1, hstep⟩, ?_⟩
    exact fun _ hreceived ↦ cutAtSignal_step h.1 h.2 (processStep_moves hstep) hreceived
  exact hinv.2 received hreceived

-- Of what was received at the cut everything has been dispatched just when the turns since have
-- cleared it.
theorem Since.dispatched_iff {turns : List Turn} (h : Since args s₀ s turns)
    (h₀ : Conserved args s₀) (hs : Conserved args s) :
    s.Dispatched s₀.received.length ↔ ClearedBy args s₀ turns := by
  rw [hs.dispatched_iff h.received_le, ClearedBy, ← waiting_le_iff, h₀.received_length, ← h.batch_eq]
  have htaken := h.taken_eq
  omega

/-- A process whose `main` has returned was signalled, and the frames received before the signal
have been dispatched just when the turns the dispatcher got between the signal and the return have
cleared what it was waiting for.  The branch of the dispatcher that flushes the final batch has not
been reached. -/
theorem shutdown_dispatched_iff (args : Args) (start : Nat) (events : List ProcessEvent)
    (p : Process) (received : Nat)
    (hrun : runFrom (processStep args) (.started args start) events = some p)
    (hmain : p.main = .returned received) :
    ∃ before between p₀, events = before ++ .signal :: (between ++ [.mainReturns]) ∧
      runFrom (processStep args) (.started args start) before = some p₀ ∧
      p₀.tasks.received.length = received ∧
      (p.tasks.Dispatched received ↔ ClearedBy args p₀.tasks (turnsOf between)) ∧
      p.tasks.returned = false := by
  have h := running_run hrun
  have hreceived : p.main.received? = some received := by
    rw [hmain]
    rfl
  obtain ⟨before, between, p₀, hevents, hbefore, rfl, hsince⟩ := cutAtSignal_run hrun hreceived
  rw [hmain] at hevents
  have h₀ := (running_run hbefore).conserved
  refine ⟨before, between, p₀, hevents, hbefore, rfl, ?_, h.conserved.returned_eq_false h.alive⟩
  exact hsince.dispatched_iff h₀ h.conserved

-- One datagram, still in the batch when the signal comes and dispatched before `main` returns.
def dispatchedInTime : List ProcessEvent :=
  [.task (.recvFrom (pcmDatagram 1)), .task .send, .task .recv, .signal, .task (.tick 5),
    .task .deadline, .mainReturns]

theorem dispatchedInTime_iff : ∃ p before between p₀,
    runFrom (processStep {}) (.started {} 0) dispatchedInTime = some p ∧
      dispatchedInTime = before ++ .signal :: (between ++ [.mainReturns]) ∧
      runFrom (processStep {}) (.started {} 0) before = some p₀ ∧
      (p.tasks.Dispatched 1 ↔ ClearedBy {} p₀.tasks (turnsOf between)) := by
  obtain ⟨before, between, p₀, hevents, hbefore, -, hiff, -⟩ :=
    shutdown_dispatched_iff {} 0 dispatchedInTime _ 1 rfl rfl
  exact ⟨_, before, between, p₀, rfl, hevents, hbefore, hiff⟩

-- One datagram, in the batch when the signal comes; `main` returns at once.
def pendingAtSignal : List ProcessEvent :=
  [.task (.recvFrom (pcmDatagram 1)), .task .send, .task .recv, .signal, .mainReturns]

/-- The frame in the batch is never passed to `dispatch_batch`. -/
theorem pending_batch_lost : ∃ p,
    runFrom (processStep {}) (.started {} 0) pendingAtSignal = some p ∧
      p.main = .returned 1 ∧ ¬ p.tasks.Dispatched 1 := by
  refine ⟨_, rfl, rfl, fun hprefix ↦ ?_⟩
  have hle := hprefix.length_le
  exact absurd hle (by decide +kernel)

end AsrServe.DynamoOrchestration.Shim
