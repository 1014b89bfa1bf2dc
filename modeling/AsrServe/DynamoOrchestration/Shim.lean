import AsrServe.Reasoning.Runs

/-!
# The orchestration shim (`dynamo-orchestration/src/main.rs`)

The ingest task and the dispatcher task around one bounded channel.  Each event is what one task
does between two of its suspension points, so a list of events is an interleaving.  The state
carries, besides the two tasks' variables, what has been received and what has been dispatched.
-/

namespace AsrServe.DynamoOrchestration.Shim

structure SocketAddr where
  ip : String
  port : UInt16
deriving DecidableEq, Repr

/-- What one `recv_from` delivers, no more than the receive buffer holds. -/
structure Datagram where
  src : SocketAddr
  payload : List UInt8
  length_le : payload.length ≤ 65535
deriving DecidableEq, Repr

structure AudioFrame where
  requestId : String
  src : SocketAddr
  payload : List UInt8
  receivedAt : Nat
deriving DecidableEq, Repr

/-- Where `ingest_task` is suspended: in `recv_from`, in `tx.send`, or nowhere any more because it
was dropped together with its sender, perhaps in the middle of a send. -/
inductive Ingest where
  | receiving
  | sending (frame : AudioFrame)
  | dropped (cut : Option AudioFrame)
deriving DecidableEq, Repr

def Ingest.frames : Ingest → List AudioFrame
  | .receiving => []
  | .sending frame => [frame]
  | .dropped cut => cut.toList

/-- The two counters; the latency histogram is left out. -/
structure Metrics where
  framesReceived : UInt64 := 0
  batchesSent : UInt64 := 0
deriving DecidableEq, Repr

/-- The arguments of `main` and the capacity of its channel; times are in milliseconds. -/
structure Args where
  capacity : Nat := 4096
  maxBatch : Nat := 8
  batchTimeout : Nat := 5

structure State where
  now : Nat
  buf : List UInt8
  frameCounter : UInt64
  ingest : Ingest
  channel : List AudioFrame
  batch : List AudioFrame
  deadline : Nat
  -- `dispatcher_task` has returned and its receiver is gone.
  returned : Bool
  metrics : Metrics
  -- Every datagram received so far and when.
  received : List (Datagram × Nat)
  -- Every batch handed to `dispatch_batch` so far.
  dispatched : List (List AudioFrame)

-- Both tasks just spawned, at time `start`.
def State.spawned (args : Args) (start : Nat) : State where
  now := start
  buf := List.replicate 65535 0
  frameCounter := 0
  ingest := .receiving
  channel := []
  batch := []
  deadline := start + args.batchTimeout
  returned := false
  metrics := {}
  received := []
  dispatched := []

/-! ## `ingest_task` -/

def requestId (frameCounter : UInt64) : String := "req-" ++ toString frameCounter.toNat

/-- `recv_from` returned a datagram: the front of the buffer is overwritten, and a frame made of
that front is on its way into the channel. -/
def recvFrom (s : State) (datagram : Datagram) : State :=
  let n := datagram.payload.length
  let buf := datagram.payload ++ s.buf.drop n
  let frameCounter := s.frameCounter + 1
  { s with
    buf := buf
    frameCounter := frameCounter
    metrics := { s.metrics with framesReceived := s.metrics.framesReceived + 1 }
    ingest := .sending
      { requestId := requestId frameCounter
        src := datagram.src
        payload := buf.take n
        receivedAt := s.now }
    received := s.received ++ [(datagram, s.now)] }

-- `tx.send` completed.
def sent (s : State) (frame : AudioFrame) : State :=
  { s with channel := s.channel ++ [frame], ingest := .receiving }

/-! ## `dispatcher_task` -/

def dispatchBatch (s : State) : State :=
  { s with
    metrics := { s.metrics with batchesSent := s.metrics.batchesSent + 1 }
    batch := []
    dispatched := s.dispatched ++ [s.batch] }

def resetDeadline (args : Args) (s : State) : State :=
  { s with deadline := s.now + args.batchTimeout }

-- `rx.recv()` returned `Some(f)`.
def onFrame (args : Args) (s : State) (frame : AudioFrame) : State :=
  let s := { s with batch := s.batch ++ [frame] }
  if s.batch.length ≥ args.maxBatch then resetDeadline args (dispatchBatch s) else s

def onClosed (s : State) : State :=
  { if s.batch ≠ [] then dispatchBatch s else s with returned := true }

def onDeadline (args : Args) (s : State) : State :=
  resetDeadline args (if s.batch ≠ [] then dispatchBatch s else s)

/-! ## The two tasks -/

inductive Event where
  -- `recv_from` returns a datagram.
  | recvFrom (datagram : Datagram)
  -- `recv_from` fails; the error is logged.
  | recvError
  -- `tx.send` finds room in the channel.
  | send
  -- `tx.send` fails because the receiver is gone; the frame is dropped.
  | sendError
  -- The ingest task is dropped, and its sender with it.
  | dropIngest
  -- The select loop takes the `rx.recv()` branch.
  | recv
  -- The select loop takes the deadline branch.
  | deadline
  -- Time passes.
  | tick (duration : Nat)

/-- `rx.recv()` is ready when the channel holds a frame, or is empty and has no sender left. -/
def recv (args : Args) (s : State) : Option State :=
  match s.channel, s.ingest with
  | frame :: rest, _ => some (onFrame args { s with channel := rest } frame)
  | [], .dropped _ => some (onClosed s)
  | [], _ => none

def step (args : Args) (s : State) : Event → Option State
  | .recvFrom datagram => if s.ingest = .receiving then some (recvFrom s datagram) else none
  | .recvError => if s.ingest = .receiving then some s else none
  | .send =>
    match s.ingest with
    | .sending frame =>
      if s.returned = false ∧ s.channel.length < args.capacity then some (sent s frame) else none
    | _ => none
  | .sendError =>
    match s.ingest with
    | .sending _ => if s.returned then some { s with ingest := .receiving } else none
    | _ => none
  | .dropIngest =>
    match s.ingest with
    | .receiving => some { s with ingest := .dropped none }
    | .sending frame => some { s with ingest := .dropped (some frame) }
    | .dropped _ => none
  | .recv => if s.returned then none else recv args s
  | .deadline =>
    if s.returned = false ∧ s.deadline ≤ s.now then some (onDeadline args s) else none
  | .tick duration => some { s with now := s.now + duration }

/-! ## What an event can do -/

/-- The steps of the shim with what each of them is preceded by. -/
inductive Moves (args : Args) (s : State) : Event → State → Prop where
  | receives (hingest : s.ingest = .receiving) (datagram : Datagram) :
      Moves args s (.recvFrom datagram) (recvFrom s datagram)
  | fails (hingest : s.ingest = .receiving) : Moves args s .recvError s
  | sends {frame : AudioFrame} (hingest : s.ingest = .sending frame)
      (hrunning : s.returned = false) (hroom : s.channel.length < args.capacity) :
      Moves args s .send (sent s frame)
  | givesUp {frame : AudioFrame} (hingest : s.ingest = .sending frame)
      (hreturned : s.returned = true) :
      Moves args s .sendError { s with ingest := .receiving }
  | drops {cut : Option AudioFrame} (hcut : s.ingest.frames = cut.toList) :
      Moves args s .dropIngest { s with ingest := .dropped cut }
  | takes {frame : AudioFrame} {rest : List AudioFrame} (hrunning : s.returned = false)
      (hchannel : s.channel = frame :: rest) :
      Moves args s .recv (onFrame args { s with channel := rest } frame)
  | closes {cut : Option AudioFrame} (hrunning : s.returned = false) (hchannel : s.channel = [])
      (hingest : s.ingest = .dropped cut) : Moves args s .recv (onClosed s)
  | expires (hrunning : s.returned = false) (hdue : s.deadline ≤ s.now) :
      Moves args s .deadline (onDeadline args s)
  | ticks (duration : Nat) : Moves args s (.tick duration) { s with now := s.now + duration }

theorem recv_moves {args : Args} {s s' : State} (hrunning : s.returned = false)
    (hrecv : recv args s = some s') : Moves args s .recv s' := by
  unfold recv at hrecv
  split at hrecv
  · rename_i frame rest _ hchannel
    cases hrecv
    exact .takes hrunning hchannel
  · rename_i cut hchannel hingest
    cases hrecv
    exact .closes hrunning hchannel hingest
  · cases hrecv

theorem step_moves {args : Args} {s s' : State} {event : Event}
    (hstep : step args s event = some s') : Moves args s event s' := by
  cases event with
  | recvFrom datagram =>
    rw [step, Option.ite_none_right_eq_some, Option.some.injEq] at hstep
    obtain ⟨hingest, rfl⟩ := hstep
    exact .receives hingest datagram
  | recvError =>
    rw [step, Option.ite_none_right_eq_some, Option.some.injEq] at hstep
    obtain ⟨hingest, rfl⟩ := hstep
    exact .fails hingest
  | send =>
    simp only [step] at hstep
    split at hstep
    · rename_i frame hingest
      rw [Option.ite_none_right_eq_some, Option.some.injEq] at hstep
      obtain ⟨⟨hrunning, hroom⟩, rfl⟩ := hstep
      exact .sends hingest hrunning hroom
    · cases hstep
  | sendError =>
    simp only [step] at hstep
    split at hstep
    · rename_i frame hingest
      rw [Option.ite_none_right_eq_some, Option.some.injEq] at hstep
      obtain ⟨hreturned, rfl⟩ := hstep
      exact .givesUp hingest hreturned
    · cases hstep
  | dropIngest =>
    simp only [step] at hstep
    split at hstep
    · rename_i hingest
      cases hstep
      exact .drops (by rw [hingest]; rfl)
    · rename_i frame hingest
      cases hstep
      exact .drops (by rw [hingest]; rfl)
    · cases hstep
  | recv =>
    rw [step, Option.ite_none_left_eq_some, Bool.not_eq_true] at hstep
    exact recv_moves hstep.1 hstep.2
  | deadline =>
    rw [step, Option.ite_none_right_eq_some, Option.some.injEq] at hstep
    obtain ⟨⟨hrunning, hdue⟩, rfl⟩ := hstep
    exact .expires hrunning hdue
  | tick duration =>
    cases hstep
    exact .ticks duration

end AsrServe.DynamoOrchestration.Shim
