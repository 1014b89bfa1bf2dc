import AsrServe.DynamoOrchestration.Nixl
import AsrServe.Reasoning.Runs

/-!
# Concurrent calls on one transfer manager

`register_tensor`, `transfer` and `evict` on one event loop: each event is one call's piece between
two suspension points.  A transfer suspends twice, on the semaphore and in the worker thread, and
an eviction can come at either place.
-/

open AsrServe.Reasoning

namespace AsrServe.DynamoOrchestration.Transfers

inductive TransferPhase where
  -- Waiting for the semaphore.
  | waiting
  -- The agent is transferring in a worker thread.
  | running
  | returned (resultPtr : Int)
  | raised
deriving DecidableEq, Repr

structure TransferCall where
  descriptor : KVCacheDescriptor
  dstDevice : Int
  dstPtr : Option Int := none
  phase : TransferPhase := .waiting
deriving DecidableEq, Repr

structure System where
  mgr : NixlTransferManager
  -- Handles handed out so far; `uuid4` never repeats one.
  issued : List String := []
  -- `register_tensor` calls suspended in `register_memory`.
  registering : Dict Nat KVCacheDescriptor := Dict.empty
  transfers : Dict Nat TransferCall := Dict.empty

inductive Event where
  | registerTensor (call : Nat) (handle : String) (args : TensorArgs)
  | registerMemoryDone (call : Nat)
  | registerMemoryRaised (call : Nat)
  | transfer (call : Nat) (descriptor : KVCacheDescriptor) (dstDevice : Int) (dstPtr : Option Int)
  -- A call waiting for the semaphore gets it.
  | acquire (call : Nat)
  | transferDone (call : Nat) (resultPtr : Int)
  | transferRaised (call : Nat)
  | evict (handle : String)
deriving DecidableEq

/-- The piece of `transfer` behind the semaphore: with a live agent it suspends in the worker
thread, in stub mode it returns at once. -/
def start (s : System) (call : Nat) (c : TransferCall) : System :=
  match s.mgr.nixlAgent with
  | some _ =>
    { s with
      mgr := s.mgr.transferBegin
      transfers := s.transfers.set call { c with phase := .running } }
  | none =>
    { s with
      mgr := s.mgr.transferBegin.transferEnd c.descriptor
      transfers := s.transfers.set call
        { c with phase := .returned (NixlTransferManager.stubResult c.dstPtr) } }

-- `semaphore.locked()`: no permit, or others waiting for one.
def locked (s : System) : Bool :=
  s.mgr.permits == 0 || s.transfers.values.any (·.phase == .waiting)

def step (s : System) : Event → Option System
  | .registerTensor call handle args =>
    if handle ∈ s.issued ∨ call ∈ s.registering then
      none
    else
      let desc := args.descriptor handle
      some
        { s with
          mgr := s.mgr.registerBegin desc
          issued := handle :: s.issued
          registering :=
            if s.mgr.nixlAgent.isSome then s.registering.set call desc else s.registering }
  | .registerMemoryDone call =>
    (s.registering.get? call).map fun desc ↦
      { s with mgr := s.mgr.registerMemory desc, registering := s.registering.erase call }
  | .registerMemoryRaised call =>
    (s.registering.get? call).map fun _ ↦ { s with registering := s.registering.erase call }
  | .transfer call descriptor dstDevice dstPtr =>
    if call ∈ s.transfers then
      none
    else
      let c : TransferCall := { descriptor, dstDevice, dstPtr }
      some (if locked s then { s with transfers := s.transfers.set call c } else start s call c)
  | .acquire call =>
    (s.transfers.get? call).bind fun c ↦
      if c.phase = .waiting ∧ 0 < s.mgr.permits then some (start s call c) else none
  | .transferDone call resultPtr =>
    (s.transfers.get? call).bind fun c ↦
      if c.phase = .running then
        some
          { s with
            mgr := s.mgr.transferEnd c.descriptor
            transfers := s.transfers.set call { c with phase := .returned resultPtr } }
      else
        none
  | .transferRaised call =>
    (s.transfers.get? call).bind fun c ↦
      if c.phase = .running then
        some
          { s with
            mgr := s.mgr.transferRaise
            transfers := s.transfers.set call { c with phase := .raised } }
      else
        none
  | .evict handle => some { s with mgr := s.mgr.evict handle }

/-! ## What the transfers need -/

/-- The agent's transfer for this call began with the step from `s` to `s'`. -/
def Started (s s' : System) (call : Nat) (c : TransferCall) : Prop :=
  s'.transfers.get? call = some c ∧ c.phase = .running ∧
    ∀ before, s.transfers.get? call = some before → before.phase ≠ .running

/-- A step touches no deregistered memory: a transfer it starts has its handle in the table, and
an eviction it makes does not deregister the region of a running transfer. -/
structure TransferSafe (s : System) (event : Event) (s' : System) : Prop where
  starts : ∀ call c, Started s s' call c → c.descriptor.handle ∈ s'.mgr.descriptors
  evicts : ∀ handle desc, event = .evict handle → s.mgr.descriptors.get? handle = some desc →
    ∀ call c, s.transfers.get? call = some c → c.phase = .running →
      c.descriptor.region ≠ desc.region

/-- The calls are kept apart from outside: a transfer is asked for under a handle in the table,
and no handle is evicted under which a transfer still waits for the semaphore, nor one whose
region a running transfer reads. -/
def KeptApart (s : System) : Event → Prop
  | .transfer _ descriptor _ _ => descriptor.handle ∈ s.mgr.descriptors
  | .evict handle => ∀ c ∈ s.transfers.values,
      (c.phase = .waiting → c.descriptor.handle ≠ handle) ∧
      (c.phase = .running → ∀ desc ∈ s.mgr.descriptors.get? handle,
        c.descriptor.region ≠ desc.region)
  | _ => True

instance (s : System) : ∀ event, Decidable (KeptApart s event)
  | .transfer _ descriptor _ _ =>
    inferInstanceAs (Decidable (descriptor.handle ∈ s.mgr.descriptors))
  | .evict _ => inferInstanceAs (Decidable (∀ c ∈ s.transfers.values, _ ∧ (_ → ∀ desc ∈ _, _)))
  | .registerTensor .. | .registerMemoryDone _ | .registerMemoryRaised _ | .acquire _
  | .transferDone .. | .transferRaised _ => isTrue trivial

/-- What a single step needs: a transfer that gets the semaphore, at once or from the queue, finds
its handle in the table, and an evicted region is not one a running transfer reads. -/
def Admits (s : System) : Event → Prop
  | .transfer _ descriptor _ _ => locked s = false → s.mgr.nixlAgent.isSome →
      descriptor.handle ∈ s.mgr.descriptors
  | .acquire call => ∀ c, s.transfers.get? call = some c → s.mgr.nixlAgent.isSome →
      c.descriptor.handle ∈ s.mgr.descriptors
  | .evict handle => ∀ c ∈ s.transfers.values, c.phase = .running →
      ∀ desc ∈ s.mgr.descriptors.get? handle, c.descriptor.region ≠ desc.region
  | _ => True

def QueuedRegistered (s : System) : Prop :=
  ∀ call c, s.transfers.get? call = some c → c.phase = .waiting →
    c.descriptor.handle ∈ s.mgr.descriptors

/-! ## What a step can do -/

variable {s s' : System}

inductive Moves (s : System) : Event → System → Prop where
  | registers {call : Nat} {handle : String} {args : TensorArgs} (hfresh : handle ∉ s.issued)
      (hnew : call ∉ s.registering) :
      Moves s (.registerTensor call handle args)
        { s with
          mgr := s.mgr.registerBegin (args.descriptor handle)
          issued := handle :: s.issued
          registering :=
            if s.mgr.nixlAgent.isSome then s.registering.set call (args.descriptor handle)
            else s.registering }
  | registered {call : Nat} {desc : KVCacheDescriptor}
      (hcall : s.registering.get? call = some desc) :
      Moves s (.registerMemoryDone call)
        { s with mgr := s.mgr.registerMemory desc, registering := s.registering.erase call }
  | registerFails {call : Nat} {desc : KVCacheDescriptor}
      (hcall : s.registering.get? call = some desc) :
      Moves s (.registerMemoryRaised call) { s with registering := s.registering.erase call }
  | queues {call : Nat} {descriptor : KVCacheDescriptor} {dstDevice : Int} {dstPtr : Option Int}
      (hnew : call ∉ s.transfers) (hlocked : locked s = true) :
      Moves s (.transfer call descriptor dstDevice dstPtr)
        { s with transfers := s.transfers.set call { descriptor, dstDevice, dstPtr } }
  | starts {call : Nat} {descriptor : KVCacheDescriptor} {dstDevice : Int} {dstPtr : Option Int}
      (hnew : call ∉ s.transfers) (hlocked : locked s = false) :
      Moves s (.transfer call descriptor dstDevice dstPtr)
        (start s call { descriptor, dstDevice, dstPtr })
  | acquires {call : Nat} {c : TransferCall} (hc : s.transfers.get? call = some c)
      (hwaiting : c.phase = .waiting) (hpermit : 0 < s.mgr.permits) :
      Moves s (.acquire call) (start s call c)
  | ends {call : Nat} {resultPtr : Int} {c : TransferCall} (hc : s.transfers.get? call = some c)
      (hrunning : c.phase = .running) :
      Moves s (.transferDone call resultPtr)
        { s with
          mgr := s.mgr.transferEnd c.descriptor
          transfers := s.transfers.set call { c with phase := .returned resultPtr } }
  | raises {call : Nat} {c : TransferCall} (hc : s.transfers.get? call = some c)
      (hrunning : c.phase = .running) :
      Moves s (.transferRaised call)
        { s with
          mgr := s.mgr.transferRaise
          transfers := s.transfers.set call { c with phase := .raised } }
  | evicts (handle : String) : Moves s (.evict handle) { s with mgr := s.mgr.evict handle }

theorem step_moves {event : Event} (hstep : step s event = some s') : Moves s event s' := by
  cases event with
  | registerTensor call handle args =>
    rw [step, Option.ite_none_left_eq_some, not_or, Option.some.injEq] at hstep
    obtain ⟨⟨hfresh, hnew⟩, rfl⟩ := hstep
    exact .registers hfresh hnew
  | registerMemoryDone call =>
    obtain ⟨desc, hcall, rfl⟩ := Option.map_eq_some_iff.mp hstep
    exact .registered hcall
  | registerMemoryRaised call =>
    obtain ⟨desc, hcall, rfl⟩ := Option.map_eq_some_iff.mp hstep
    exact .registerFails hcall
  | transfer call descriptor dstDevice dstPtr =>
    rw [step, Option.ite_none_left_eq_some, Option.some.injEq] at hstep
    obtain ⟨hnew, rfl⟩ := hstep
    split
    · rename_i hlocked
      exact .queues hnew hlocked
    · rename_i hlocked
      exact .starts hnew (eq_false_of_ne_true hlocked)
  | acquire call =>
    simp only [step, Option.bind_eq_some_iff, Option.ite_none_right_eq_some,
      Option.some.injEq] at hstep
    obtain ⟨c, hc, ⟨hwaiting, hpermit⟩, rfl⟩ := hstep
    exact .acquires hc hwaiting hpermit
  | transferDone call resultPtr =>
    simp only [step, Option.bind_eq_some_iff, Option.ite_none_right_eq_some,
      Option.some.injEq] at hstep
    obtain ⟨c, hc, hrunning, rfl⟩ := hstep
    exact .ends hc hrunning
  | transferRaised call =>
    simp only [step, Option.bind_eq_some_iff, Option.ite_none_right_eq_some,
      Option.some.injEq] at hstep
    obtain ⟨c, hc, hrunning, rfl⟩ := hstep
    exact .raises hc hrunning
  | evict handle =>
    cases hstep
    exact .evicts handle

/-! ## One step -/

-- A step that is no eviction is safe when what it starts is.
theorem transferSafe_of_starts {event : Event} (hevent : ∀ handle, event ≠ .evict handle) :
    TransferSafe s event s' ↔
      ∀ call c, Started s s' call c → c.descriptor.handle ∈ s'.mgr.descriptors :=
  ⟨fun h ↦ h.starts, fun h ↦ ⟨h, fun handle _ heq ↦ absurd heq (hevent handle)⟩⟩

theorem not_started (htransfers : s'.transfers = s.transfers) (call : Nat) (c : TransferCall) :
    ¬ Started s s' call c := by
  rintro ⟨hc, hrunning, hbefore⟩
  rw [htransfers] at hc
  exact hbefore c hc hrunning

-- A step that moves one call on can start that one only.
theorem started_set {k call : Nat} {c' c : TransferCall}
    (htransfers : s'.transfers = s.transfers.set k c') (h : Started s s' call c) :
    c = c' ∧ c'.phase = .running := by
  obtain ⟨hc, hrunning, hbefore⟩ := h
  rw [htransfers] at hc
  rcases Dict.get?_set_cases hc with ⟨-, rfl⟩ | ⟨-, hold⟩
  · exact ⟨rfl, hrunning⟩
  · exact absurd hrunning (hbefore c hold)

/-- With a live agent the piece behind the semaphore starts a transfer; in stub mode none. -/
theorem start_starts_iff {k : Nat} {c : TransferCall}
    (hbefore : ∀ before, s.transfers.get? k = some before → before.phase ≠ .running) :
    (∀ call c', Started s (start s k c) call c' →
        c'.descriptor.handle ∈ (start s k c).mgr.descriptors) ↔
      (s.mgr.nixlAgent.isSome → c.descriptor.handle ∈ s.mgr.descriptors) := by
  unfold start
  split
  · rename_i agent hagent
    constructor
    · intro h _
      exact h k { c with phase := .running } ⟨Dict.get?_set_self .., rfl, hbefore⟩
    · intro h call c' hstarted
      rw [(started_set rfl hstarted).1]
      exact h (by rw [hagent]; rfl)
  · rename_i hagent
    apply iff_of_true
    · intro call c' hstarted
      cases (started_set rfl hstarted).2
    · intro hlive
      rw [hagent] at hlive
      cases hlive

/-- A step is safe just when it meets the condition. -/
theorem transferSafe_iff {event : Event} (hmoves : Moves s event s') :
    TransferSafe s event s' ↔ Admits s event := by
  cases hmoves with
  | registers _ _ | registered _ | registerFails _ =>
    refine (transferSafe_of_starts fun handle h ↦ by cases h).trans ?_
    exact iff_of_true (fun call c h ↦ absurd h (not_started rfl call c)) trivial
  | queues _ hlocked =>
    refine (transferSafe_of_starts fun handle h ↦ by cases h).trans (iff_of_true ?_ ?_)
    · intro call c hstarted
      cases (started_set rfl hstarted).2
    · intro hfree
      rw [hlocked] at hfree
      cases hfree
  | starts hnew hlocked =>
    refine (transferSafe_of_starts fun handle h ↦ by cases h).trans ?_
    rw [start_starts_iff fun before hbefore ↦ absurd (Dict.mem_iff_exists.mpr ⟨_, hbefore⟩) hnew]
    exact ⟨fun h _ ↦ h, fun h ↦ h hlocked⟩
  | @acquires call c hc hwaiting _ =>
    refine (transferSafe_of_starts fun handle h ↦ by cases h).trans ?_
    rw [start_starts_iff fun before hbefore hrunning ↦ by
      cases hc.symm.trans hbefore
      cases hwaiting.symm.trans hrunning]
    refine ⟨fun h c' hc' ↦ ?_, fun h ↦ h c hc⟩
    cases hc.symm.trans hc'
    exact h
  | ends _ _ | raises _ _ =>
    refine (transferSafe_of_starts fun handle h ↦ by cases h).trans (iff_of_true ?_ trivial)
    intro call c hstarted
    cases (started_set rfl hstarted).2
  | evicts handle =>
    constructor
    · intro h c hmem hrunning desc hdesc
      obtain ⟨call, hc⟩ := Dict.mem_values_iff.mp hmem
      exact h.evicts handle desc rfl hdesc call c hc hrunning
    · intro h
      refine ⟨fun call c hstarted ↦ absurd hstarted (not_started rfl call c), ?_⟩
      rintro _ desc ⟨⟩ hdesc call c hc hrunning
      exact h c (Dict.mem_values_iff.mpr ⟨call, hc⟩) hrunning desc hdesc

theorem admits_of_keptApart {event : Event} (hq : QueuedRegistered s) (hmoves : Moves s event s')
    (hapart : KeptApart s event) : Admits s event := by
  cases hmoves with
  | queues _ _ | starts _ _ => exact fun _ _ ↦ hapart
  | acquires hc hwaiting _ =>
    intro c' hc' _
    cases hc.symm.trans hc'
    exact hq _ _ hc hwaiting
  | evicts handle => exact fun c hmem ↦ (hapart c hmem).2
  | _ => trivial

-- A step that leaves the calls alone and keeps the handles of the queued ones.
theorem QueuedRegistered.of_same (hq : QueuedRegistered s)
    (htransfers : s'.transfers = s.transfers)
    (htable : ∀ call c, s.transfers.get? call = some c → c.phase = .waiting →
      c.descriptor.handle ∈ s.mgr.descriptors → c.descriptor.handle ∈ s'.mgr.descriptors) :
    QueuedRegistered s' := by
  intro call c hc hwaiting
  rw [htransfers] at hc
  exact htable call c hc hwaiting (hq call c hc hwaiting)

-- A step that moves one call on and leaves the table alone.
theorem QueuedRegistered.of_set {k : Nat} {c' : TransferCall} (hq : QueuedRegistered s)
    (htransfers : s'.transfers = s.transfers.set k c')
    (htable : s'.mgr.descriptors = s.mgr.descriptors)
    (hc' : c'.phase = .waiting → c'.descriptor.handle ∈ s.mgr.descriptors) :
    QueuedRegistered s' := by
  intro call c hc hwaiting
  rw [htransfers] at hc
  rw [htable]
  rcases Dict.get?_set_cases hc with ⟨-, rfl⟩ | ⟨-, hold⟩
  · exact hc' hwaiting
  · exact hq call c hold hwaiting

theorem QueuedRegistered.start (hq : QueuedRegistered s) (k : Nat) (c : TransferCall) :
    QueuedRegistered (start s k c) := by
  unfold Transfers.start
  split
  · exact hq.of_set rfl rfl fun h ↦ by cases h
  · exact hq.of_set rfl rfl fun h ↦ by cases h

-- Calls that are kept apart leave every queued transfer registered.
theorem QueuedRegistered.step (hq : QueuedRegistered s) {event : Event}
    (hmoves : Moves s event s') (hapart : KeptApart s event) : QueuedRegistered s' := by
  cases hmoves with
  | registers _ _ => exact hq.of_same rfl fun _ _ _ _ hmem ↦ Dict.mem_set.mpr (.inr hmem)
  | registered _ => exact hq.of_same rfl fun _ _ _ _ hmem ↦ hmem
  | registerFails _ => exact hq.of_same rfl fun _ _ _ _ hmem ↦ hmem
  | queues _ _ => exact hq.of_set rfl rfl fun _ ↦ hapart
  | starts _ _ => exact hq.start _ _
  | acquires _ _ _ => exact hq.start _ _
  | ends _ _ => exact hq.of_set rfl rfl fun h ↦ by cases h
  | raises _ _ => exact hq.of_set rfl rfl fun h ↦ by cases h
  | evicts handle =>
    exact hq.of_same rfl fun call c hc hwaiting hmem ↦
      (NixlTransferManager.mem_evict ..).mpr
        ⟨(hapart c (Dict.mem_values_iff.mpr ⟨call, hc⟩)).1 hwaiting, hmem⟩

/-! ## Whole runs -/

-- A manager on which no call has been made yet.
def System.idle (mgr : NixlTransferManager) : System where
  mgr := mgr

/-- No transfer of a run touches deregistered memory just when each one that gets the semaphore still
finds its handle in the table and no eviction is of a region being read. -/
theorem transfer_safe_along_iff (s : System) (events : List Event) :
    Along step TransferSafe s events ↔ Along step (fun s event _ ↦ Admits s event) s events := by
  apply along_congr (I := fun _ ↦ True)
  · exact fun s event s' _ hstep ↦ transferSafe_iff (step_moves hstep)
  · exact fun _ _ _ _ _ _ ↦ trivial
  · trivial

/-- As long as the calls of a run are kept apart, no transfer of it touches deregistered memory. -/
theorem transfer_safe_of_kept_apart (mgr : NixlTransferManager) (events : List Event)
    (hapart : Along step (fun s event _ ↦ KeptApart s event) (.idle mgr) events) :
    Along step TransferSafe (.idle mgr) events := by
  rw [transfer_safe_along_iff]
  apply along_of_meets (I := QueuedRegistered) _ _ hapart
  · intro s event s' hq hstep hmeets
    have hmoves := step_moves hstep
    exact ⟨admits_of_keptApart hq hmoves hmeets, hq.step hmoves hmeets⟩
  · exact fun _ _ hc ↦ absurd hc (by simp [System.idle])

def oneAtATime : NixlTransferManager where
  maxConcurrent := 1
  nixlAgent := some {}

-- A tensor registered, transferred and evicted one after the other.
def inOrder : List Event :=
  [.registerTensor 0 "kv-0" (kvTensor 0x7F000000), .registerMemoryDone 0,
    .transfer 0 ((kvTensor 0x7F000000).descriptor "kv-0") 1 none, .transferDone 0 0x80000000,
    .evict "kv-0"]

theorem inOrder_safe : Along step TransferSafe (.idle oneAtATime) inOrder :=
  transfer_safe_of_kept_apart oneAtATime inOrder (by decide +kernel)

-- A second transfer waits for the semaphore while its tensor is evicted.
def evictedInQueue : List Event :=
  [.registerTensor 0 "kv-0" (kvTensor 0x7F000000), .registerMemoryDone 0,
    .registerTensor 1 "kv-1" (kvTensor 0x7F400000), .registerMemoryDone 1,
    .transfer 0 ((kvTensor 0x7F000000).descriptor "kv-0") 1 none,
    .transfer 1 ((kvTensor 0x7F400000).descriptor "kv-1") 1 none,
    .evict "kv-1", .transferDone 0 0x80000000]

def transferUnderWay : List Event :=
  [.registerTensor 0 "kv-0" (kvTensor 0x7F000000), .registerMemoryDone 0,
    .transfer 0 ((kvTensor 0x7F000000).descriptor "kv-0") 1 none]

/-- The queued transfer of the evicted tensor starts once the semaphore is free, and an eviction
deregisters the region of a running transfer. -/
theorem eviction_races_transfer :
    ¬ Along step TransferSafe (.idle oneAtATime) (evictedInQueue ++ [.acquire 1]) ∧
      ¬ Along step TransferSafe (.idle oneAtATime) (transferUnderWay ++ [.evict "kv-0"]) := by
  constructor
  · intro h
    have hsafe := along_iff_split.mp h evictedInQueue (.acquire 1) [] _ _ rfl rfl rfl
    have hmem := hsafe.starts 1
      { descriptor := (kvTensor 0x7F400000).descriptor "kv-1", dstDevice := 1, phase := .running }
      ⟨by decide +kernel, rfl, fun before hbefore ↦ by
        have hwaiting : before.phase = .waiting := by
          cases hbefore
          rfl
        rw [hwaiting]
        decide⟩
    exact absurd hmem (by decide +kernel)
  · intro h
    have hsafe := along_iff_split.mp h transferUnderWay (.evict "kv-0") [] _ _ rfl rfl rfl
    have hne := hsafe.evicts "kv-0" ((kvTensor 0x7F000000).descriptor "kv-0") rfl
      (by decide +kernel) 0
      { descriptor := (kvTensor 0x7F000000).descriptor "kv-0", dstDevice := 1, phase := .running }
      (by decide +kernel) rfl
    exact hne rfl

end AsrServe.DynamoOrchestration.Transfers
