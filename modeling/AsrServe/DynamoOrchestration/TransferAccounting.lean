import AsrServe.DynamoOrchestration.Transfers
import Mathlib.Algebra.Ring.Int.Defs

/-!
# The transfer statistics

`TransferStats` against the calls of a run: what has been initiated, what is between acquiring and
releasing the semaphore, what has come back and what has raised.
-/

open AsrServe.Reasoning

namespace AsrServe.DynamoOrchestration.Transfers

namespace TransferPhase

def hasBegun : TransferPhase → Bool
  | .waiting => false
  | .running | .returned _ | .raised => true

def hasReturned : TransferPhase → Bool
  | .returned _ => true
  | .waiting | .running | .raised => false

end TransferPhase

-- The bytes a call has transferred.
def TransferCall.bytesDone (c : TransferCall) : Int :=
  if c.phase.hasReturned then c.descriptor.tensorBytes else 0

namespace System

def count (s : System) (p : TransferPhase → Bool) : Nat := s.transfers.values.countP (p ·.phase)

/-- The transfers between acquiring the semaphore and releasing it. -/
def underWay (s : System) : Nat := s.count (· == .running)

-- The transfers that came to an end in an exception of the agent.
def failed (s : System) : Nat := s.count (· == .raised)

def bytesDone (s : System) : Int := (s.transfers.values.map TransferCall.bytesDone).sum

end System

/-- The bytes are those of the completed transfers, and the semaphore bounds those under way. -/
structure Bounded (s : System) : Prop where
  bytes : s.mgr.stats.bytesTransferred = s.bytesDone
  underWay_le : s.underWay ≤ s.mgr.maxConcurrent

/-- And every initiated transfer is completed, counted as an error or under way. -/
structure Accounts (s : System) : Prop extends Bounded s where
  balance : s.mgr.stats.transfersInitiated =
    s.mgr.stats.transfersCompleted + s.mgr.stats.errors + s.underWay

def Event.isRaise : Event → Bool
  | .transferRaised _ => true
  | _ => false

/-! ## The books as the code keeps them -/

/-- Each counter is a sum over the calls, but for the errors, which stay at zero; each permit is
free or with a transfer under way. -/
structure Ledger (s : System) : Prop where
  initiated : s.mgr.stats.transfersInitiated = s.count (·.hasBegun)
  completed : s.mgr.stats.transfersCompleted = s.count (·.hasReturned)
  errors : s.mgr.stats.errors = 0
  bytes : s.mgr.stats.bytesTransferred = s.bytesDone
  permits : s.mgr.permits + s.underWay = s.mgr.maxConcurrent

variable {s s' : System}

theorem count_hasBegun (s : System) :
    s.count (·.hasBegun) = s.count (·.hasReturned) + s.failed + s.underWay := by
  unfold System.failed System.underWay System.count
  induction s.transfers.values with
  | nil => rfl
  | cons c cs ih =>
    simp only [List.countP_cons, ih]
    cases c.phase <;> simp [TransferPhase.hasBegun, TransferPhase.hasReturned] <;> omega

theorem Ledger.bounded (h : Ledger s) : Bounded s := by
  refine ⟨h.bytes, ?_⟩
  have hpermits := h.permits
  omega

-- Nothing but the missing errors is in the way of the balance.
theorem Ledger.accounts_iff (h : Ledger s) : Accounts s ↔ s.failed = 0 := by
  have hbalance := count_hasBegun s
  rw [← h.initiated, ← h.completed] at hbalance
  have herrors := h.errors
  constructor
  · intro haccounts
    have := haccounts.balance
    omega
  · intro hfailed
    refine ⟨h.bounded, ?_⟩
    omega

/-! ## One call moves on -/

-- A call that has not been made counts for nothing, like one that waits.
def System.phaseOf (s : System) (call : Nat) : TransferPhase :=
  ((s.transfers.get? call).map (·.phase)).getD .waiting

theorem phaseOf_of_get? {call : Nat} {c : TransferCall} (hc : s.transfers.get? call = some c) :
    s.phaseOf call = c.phase := by
  rw [System.phaseOf, hc]
  rfl

theorem phaseOf_of_not_mem {call : Nat} (h : call ∉ s.transfers) : s.phaseOf call = .waiting := by
  rw [System.phaseOf, Dict.not_mem_iff.mp h]
  rfl

/-- A call that moves on exchanges what it counts for. -/
theorem count_set {p : TransferPhase → Bool} (hp : p .waiting = false) {call : Nat}
    {c : TransferCall} (htransfers : s'.transfers = s.transfers.set call c) :
    s'.count p + (p (s.phaseOf call)).toNat = s.count p + (p c.phase).toNat := by
  have htally (c : TransferCall) : Dict.tally (p ·.phase) c = (p c.phase).toNat := by
    rw [Dict.tally]
    cases p c.phase <;> rfl
  have hcount := Dict.countP_values_set_elim (p ·.phase) s.transfers call c
  rw [← htransfers, htally] at hcount
  cases hc : s.transfers.get? call with
  | none =>
    rw [phaseOf_of_not_mem (Dict.not_mem_iff.mpr hc), hp]
    rwa [hc] at hcount
  | some old =>
    rw [phaseOf_of_get? hc, ← htally old]
    rwa [hc] at hcount

theorem bytesDone_set {call : Nat} {c : TransferCall}
    (htransfers : s'.transfers = s.transfers.set call c)
    (hopen : (s.phaseOf call).hasReturned = false) :
    s'.bytesDone = s.bytesDone + c.bytesDone := by
  have hsum := Dict.sum_values_set_elim TransferCall.bytesDone s.transfers call c
  rw [← htransfers] at hsum
  cases hc : s.transfers.get? call with
  | none =>
    rw [hc] at hsum
    exact (add_zero _).symm.trans hsum
  | some old =>
    rw [phaseOf_of_get? hc] at hopen
    have hold : old.bytesDone = 0 := by rw [TransferCall.bytesDone, hopen]; rfl
    rw [hc, Option.elim_some, hold] at hsum
    exact (add_zero _).symm.trans hsum

/-- The books stay right when the counters move with the call. -/
theorem Ledger.of_set (h : Ledger s) {call : Nat} {c : TransferCall} {phase : TransferPhase}
    (htransfers : s'.transfers = s.transfers.set call c) (hphase : s.phaseOf call = phase)
    (hopen : phase.hasReturned = false)
    (hinitiated : s'.mgr.stats.transfersInitiated + phase.hasBegun.toNat =
      s.mgr.stats.transfersInitiated + c.phase.hasBegun.toNat)
    (hcompleted : s'.mgr.stats.transfersCompleted =
      s.mgr.stats.transfersCompleted + c.phase.hasReturned.toNat)
    (herrors : s'.mgr.stats.errors = s.mgr.stats.errors)
    (hbytes : s'.mgr.stats.bytesTransferred = s.mgr.stats.bytesTransferred + c.bytesDone)
    (hpermits : s'.mgr.permits + (c.phase == .running).toNat =
      s.mgr.permits + (phase == .running).toNat)
    (hmax : s'.mgr.maxConcurrent = s.mgr.maxConcurrent) : Ledger s' := by
  subst hphase
  have hbegun := count_set (p := (·.hasBegun)) rfl htransfers
  have hreturned := count_set (p := (·.hasReturned)) rfl htransfers
  have hrunning := count_set (p := (· == .running)) rfl htransfers
  rw [hopen] at hreturned
  refine ⟨?_, ?_, herrors.trans h.errors, ?_, ?_⟩
  · have := h.initiated
    omega
  · rw [hcompleted, h.completed]
    exact hreturned.symm
  · rw [hbytes, bytesDone_set htransfers hopen, h.bytes]
  · have := h.permits
    unfold System.underWay at this ⊢
    omega

theorem Ledger.of_same (h : Ledger s) (htransfers : s'.transfers = s.transfers)
    (hstats : s'.mgr.stats = s.mgr.stats) (hpermits : s'.mgr.permits = s.mgr.permits)
    (hmax : s'.mgr.maxConcurrent = s.mgr.maxConcurrent) : Ledger s' := by
  have hcount (p : TransferPhase → Bool) : s'.count p = s.count p := by
    rw [System.count, System.count, htransfers]
  have hbytes : s'.bytesDone = s.bytesDone := by
    rw [System.bytesDone, System.bytesDone, htransfers]
  refine ⟨?_, ?_, ?_, ?_, ?_⟩
  · rw [hstats, hcount, h.initiated]
  · rw [hstats, hcount, h.completed]
  · rw [hstats, h.errors]
  · rw [hstats, hbytes, h.bytes]
  · rw [hpermits, hmax, System.underWay, hcount]
    exact h.permits

/-! ## One step -/

theorem permits_pos_of_not_locked (h : locked s = false) : 0 < s.mgr.permits := by
  rw [locked, Bool.or_eq_false_iff] at h
  exact Nat.pos_of_ne_zero (ne_of_beq_false h.1)

theorem Ledger.start (h : Ledger s) {call : Nat} {c : TransferCall}
    (hphase : s.phaseOf call = .waiting) (hpermit : 0 < s.mgr.permits) :
    Ledger (start s call c) := by
  unfold Transfers.start
  split
  · -- with an agent the transfer keeps the permit it took
    have hpermits : s.mgr.permits - 1 + 1 = s.mgr.permits := by omega
    exact h.of_set rfl hphase rfl rfl rfl rfl (add_zero _).symm hpermits rfl
  · -- in stub mode it gives it back in the same piece
    have hpermits : s.mgr.permits - 1 + 1 = s.mgr.permits := by omega
    exact h.of_set rfl hphase rfl rfl rfl rfl rfl hpermits rfl

theorem Ledger.step {event : Event} (h : Ledger s) (hstep : step s event = some s') :
    Ledger s' := by
  cases step_moves hstep with
  | registers _ _ => exact h.of_same rfl rfl rfl rfl
  | registered _ => exact h.of_same rfl rfl rfl rfl
  | registerFails _ => exact h.of_same rfl rfl rfl rfl
  | queues hnew _ =>
    exact h.of_set rfl (phaseOf_of_not_mem hnew) rfl rfl rfl rfl (add_zero _).symm rfl rfl
  | starts hnew hlocked =>
    exact h.start (phaseOf_of_not_mem hnew) (permits_pos_of_not_locked hlocked)
  | acquires hc hwaiting hpermit =>
    exact h.start ((phaseOf_of_get? hc).trans hwaiting) hpermit
  | ends hc hrunning =>
    exact h.of_set rfl ((phaseOf_of_get? hc).trans hrunning) rfl rfl rfl rfl rfl rfl rfl
  | raises hc hrunning =>
    exact h.of_set rfl ((phaseOf_of_get? hc).trans hrunning) rfl rfl rfl rfl (add_zero _).symm
      rfl rfl
  | evicts handle =>
    exact h.of_same rfl (NixlTransferManager.evict_stats ..) (NixlTransferManager.evict_permits ..)
      (NixlTransferManager.evict_maxConcurrent ..)

theorem failed_of_set {call : Nat} {c : TransferCall} {phase : TransferPhase} {more : Nat}
    (htransfers : s'.transfers = s.transfers.set call c) (hphase : s.phaseOf call = phase)
    (hopen : (phase == .raised) = false) (hmore : (c.phase == .raised).toNat = more) :
    s'.failed = s.failed + more := by
  have hcount := count_set (p := (· == .raised)) rfl htransfers
  rwa [hphase, hopen, hmore] at hcount

theorem failed_start {call : Nat} {c : TransferCall} (hphase : s.phaseOf call = .waiting) :
    (start s call c).failed = s.failed + 0 := by
  unfold Transfers.start
  split
  · exact failed_of_set rfl hphase rfl rfl
  · exact failed_of_set rfl hphase rfl rfl

/-- A step adds a failed transfer just when the agent raises in it. -/
theorem failed_step {event : Event} (hstep : step s event = some s') :
    s'.failed = s.failed + event.isRaise.toNat := by
  cases step_moves hstep with
  | registers _ _ => rfl
  | registered _ => rfl
  | registerFails _ => rfl
  | queues hnew _ => exact failed_of_set rfl (phaseOf_of_not_mem hnew) rfl rfl
  | starts hnew _ => exact failed_start (phaseOf_of_not_mem hnew)
  | acquires hc hwaiting _ => exact failed_start ((phaseOf_of_get? hc).trans hwaiting)
  | ends hc hrunning => exact failed_of_set rfl ((phaseOf_of_get? hc).trans hrunning) rfl rfl
  | raises hc hrunning => exact failed_of_set rfl ((phaseOf_of_get? hc).trans hrunning) rfl rfl
  | evicts handle => rfl

/-! ## Whole runs -/

-- A manager as its constructor and `start` leave it, with an agent or in stub mode.
def fresh (maxConcurrent : Nat) (nixlAgent : Option Agent) : System :=
  .idle { maxConcurrent, nixlAgent }

theorem ledger_fresh (maxConcurrent : Nat) (nixlAgent : Option Agent) :
    Ledger (fresh maxConcurrent nixlAgent) :=
  ⟨rfl, rfl, rfl, rfl, rfl⟩

/-- Initiated transfers are completed, errors or under way in every state of a run just when no
transfer of it raises; the bytes and the bound on those under way are right in any run. -/
theorem transfer_accounts_iff (maxConcurrent : Nat) (nixlAgent : Option Agent)
    (events : List Event) :
    (Along step (fun _ _ s' ↦ Accounts s') (fresh maxConcurrent nixlAgent) events ↔
      Along step (fun _ event _ ↦ event.isRaise = false) (fresh maxConcurrent nixlAgent) events) ∧
    Along step (fun _ _ s' ↦ Bounded s') (fresh maxConcurrent nixlAgent) events := by
  constructor
  · apply along_congr (I := fun s ↦ Ledger s ∧ s.failed = 0)
    · rintro s event s' ⟨hledger, hfailed⟩ hstep
      rw [(hledger.step hstep).accounts_iff, failed_step hstep, hfailed]
      cases event.isRaise <;> simp
    · rintro s event s' ⟨hledger, -⟩ hstep haccounts
      have hafter := hledger.step hstep
      exact ⟨hafter, hafter.accounts_iff.mp haccounts⟩
    · exact ⟨ledger_fresh .., rfl⟩
  · rw [along_iff_split]
    intro pre event post s s' _ hpre hstep
    have hbefore : Ledger s :=
      run_invariant (fun _ _ _ h hs ↦ Ledger.step h hs) (ledger_fresh maxConcurrent nixlAgent) hpre
    exact (hbefore.step hstep).bounded

-- One transfer, which the fabric loses.
def lostTransfer : List Event :=
  [.transfer 0 ((kvTensor 0x7F000000).descriptor "kv-0") 1 none]

/-- A transfer that raised is initiated, not completed, not under way and no error. -/
theorem raised_transfer_unaccounted :
    ¬ Along step (fun _ _ s' ↦ Accounts s') (fresh 64 (some {}))
      (lostTransfer ++ [.transferRaised 0]) := by
  intro h
  have haccounts := along_iff_split.mp h lostTransfer (.transferRaised 0) [] _ _ rfl rfl rfl
  exact absurd haccounts.balance (by decide +kernel)

end AsrServe.DynamoOrchestration.Transfers
