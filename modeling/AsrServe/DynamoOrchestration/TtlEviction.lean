import AsrServe.DynamoOrchestration.Nixl
import AsrServe.Reasoning.Runs
import Mathlib.Algebra.Order.Field.Rat

/-!
# The TTL eviction loop (`run_ttl_eviction_loop`)

The loop beside the registrations and the direct evictions it is meant to follow.  Times are
seconds on the monotonic clock.
-/

open AsrServe.Reasoning

namespace AsrServe.DynamoOrchestration.TtlEviction

structure System where
  mgr : NixlTransferManager
  -- The loop's own table.
  registeredTimes : Dict String ℚ := Dict.empty
  now : ℚ := 0
  -- Handles handed out so far; `uuid4` never repeats one.
  issued : List String := []

inductive Event where
  | registerTensor (now : ℚ) (handle : String) (args : TensorArgs)
  | evict (handle : String)
  -- One iteration of the loop, with the time it reads.
  | iteration (now : ℚ)
deriving DecidableEq

/-- The handles an iteration at `now` selects. -/
def toEvict (s : System) (now : ℚ) : List String :=
  (s.mgr.descriptors.entries.filter fun (handle, desc) ↦
    match s.registeredTimes.get? handle with
    | none => false
    | some registered => decide ((now - registered) * 1000 > desc.ttlMs)).map Prod.fst

def evictOne (s : System) (handle : String) : System :=
  { s with
    mgr := s.mgr.evict handle
    registeredTimes := s.registeredTimes.erase handle }

def iteration (s : System) (now : ℚ) : System :=
  (toEvict s now).foldl evictOne { s with now := now }

def step (s : System) : Event → Option System
  | .registerTensor now handle args =>
    if s.now ≤ now ∧ handle ∉ s.issued then
      some
        { s with
          mgr := s.mgr.registerTensor (args.descriptor handle)
          now := now
          issued := handle :: s.issued }
    else
      none
  | .evict handle => some { s with mgr := s.mgr.evict handle }
  | .iteration now => if s.now ≤ now then some (iteration s now) else none

-- A manager with nothing registered, and the loop about to start.
def System.started (agent : Option Agent) : System where
  mgr := { nixlAgent := agent }

/-! ## What the loop is for -/

/-- After the iteration at `t` nothing is left that an earlier iteration, at `t0`, already saw and
whose TTL has run out since. -/
def ExpiredGone (s : System) (events : List Event) : Prop :=
  ∀ pre t0 mid t post early late handle desc,
    events = pre ++ .iteration t0 :: (mid ++ .iteration t :: post) →
    runFrom step s pre = some early → early.mgr.descriptors.get? handle = some desc →
    (desc.ttlMs : ℚ) < (t - t0) * 1000 →
    runFrom step early (.iteration t0 :: (mid ++ [.iteration t])) = some late →
    handle ∉ late.mgr.descriptors

/-- The iteration at `t` only removes what was registered at least its TTL ago. -/
def NeverEarly (s : System) (events : List Event) : Prop :=
  ∀ pre registered handle args mid t post before after,
    events = pre ++ .registerTensor registered handle args :: (mid ++ .iteration t :: post) →
    runFrom step s (pre ++ .registerTensor registered handle args :: mid) = some before →
    step before (.iteration t) = some after →
    handle ∈ before.mgr.descriptors → handle ∉ after.mgr.descriptors →
    (args.ttlMs : ℚ) ≤ (t - registered) * 1000

/-- Whatever the loop would have to remove has been evicted directly in the meantime. -/
def EvictedByHand (s : System) (events : List Event) : Prop :=
  ∀ pre t0 mid t post early handle desc,
    events = pre ++ .iteration t0 :: (mid ++ .iteration t :: post) →
    runFrom step s pre = some early → early.mgr.descriptors.get? handle = some desc →
    (desc.ttlMs : ℚ) < (t - t0) * 1000 → .evict handle ∈ mid

/-! ## What the loop does -/

/-- The loop has recorded nothing, and every handle in the table was once issued. -/
structure Idle (s : System) : Prop where
  registeredTimes_eq : s.registeredTimes = Dict.empty
  issued_of_mem : ∀ handle ∈ s.mgr.descriptors, handle ∈ s.issued

variable {s s' : System}

-- Without recorded times an iteration selects nothing.
theorem Idle.iteration_eq (h : Idle s) (now : ℚ) : iteration s now = { s with now := now } := by
  have hnone : toEvict s now = [] := by
    rw [toEvict, List.map_eq_nil_iff, List.filter_eq_nil_iff]
    intro entry _
    simp [h.registeredTimes_eq]
  rw [iteration, hnone, List.foldl_nil]

theorem idle_started (agent : Option Agent) : Idle (.started agent) where
  registeredTimes_eq := rfl
  issued_of_mem := fun _ hmem ↦ absurd hmem List.not_mem_nil

theorem Idle.step_iteration (h : Idle s) {now : ℚ}
    (hstep : step s (.iteration now) = some s') : s' = { s with now := now } := by
  rw [step, Option.ite_none_right_eq_some, Option.some.injEq, h.iteration_eq] at hstep
  exact hstep.2.symm

theorem step_registerTensor {now : ℚ} {handle : String} {args : TensorArgs}
    (hstep : step s (.registerTensor now handle args) = some s') :
    handle ∉ s.issued ∧ s' =
      { s with
        mgr := s.mgr.registerTensor (args.descriptor handle)
        now := now
        issued := handle :: s.issued } := by
  rw [step, Option.ite_none_right_eq_some, Option.some.injEq] at hstep
  exact ⟨hstep.1.2, hstep.2.symm⟩

theorem Idle.step (h : Idle s) {event : Event} (hstep : step s event = some s') : Idle s' := by
  cases event with
  | registerTensor now handle args =>
    obtain ⟨-, rfl⟩ := step_registerTensor hstep
    refine ⟨h.registeredTimes_eq, fun j hj ↦ ?_⟩
    rcases Dict.mem_set.mp hj with rfl | hold
    · exact List.mem_cons_self
    · exact List.mem_cons_of_mem _ (h.issued_of_mem j hold)
  | evict handle =>
    cases hstep
    refine ⟨h.registeredTimes_eq, fun j hj ↦ ?_⟩
    exact h.issued_of_mem j ((NixlTransferManager.mem_evict ..).mp hj).2
  | iteration now =>
    rw [h.step_iteration hstep]
    exact ⟨h.registeredTimes_eq, h.issued_of_mem⟩

theorem Idle.issued_mono (h : Idle s) {event : Event}
    (hstep : TtlEviction.step s event = some s') {handle : String} (hissued : handle ∈ s.issued) :
    handle ∈ s'.issued := by
  cases event with
  | registerTensor now j args =>
    obtain ⟨-, rfl⟩ := step_registerTensor hstep
    exact List.mem_cons_of_mem _ hissued
  | evict j =>
    cases hstep
    exact hissued
  | iteration now =>
    rw [h.step_iteration hstep]
    exact hissued

-- What one event does to the entry of an issued handle: only a direct eviction touches it.
theorem Idle.get?_step (h : Idle s) {event : Event}
    (hstep : TtlEviction.step s event = some s') {handle : String} (hissued : handle ∈ s.issued) :
    s'.mgr.descriptors.get? handle =
      if event = .evict handle then none else s.mgr.descriptors.get? handle := by
  cases event with
  | registerTensor now j args =>
    obtain ⟨hfresh, rfl⟩ := step_registerTensor hstep
    have hne : handle ≠ j := fun heq ↦ hfresh (heq ▸ hissued)
    rw [if_neg (by simp)]
    exact Dict.get?_set_of_ne _ _ hne
  | evict j =>
    cases hstep
    rw [NixlTransferManager.get?_evict]
    exact if_congr (by rw [Event.evict.injEq, eq_comm]) rfl rfl
  | iteration now =>
    rw [h.step_iteration hstep, if_neg (by simp)]

/-- Over a run an issued handle keeps its entry until it is evicted directly. -/
theorem Idle.get?_run (h : Idle s) {events : List Event}
    (hrun : runFrom TtlEviction.step s events = some s') {handle : String}
    (hissued : handle ∈ s.issued) :
    s'.mgr.descriptors.get? handle =
      if .evict handle ∈ events then none else s.mgr.descriptors.get? handle := by
  induction events generalizing s with
  | nil =>
    rw [runFrom_nil, Option.some.injEq] at hrun
    rw [if_neg List.not_mem_nil, hrun]
  | cons event events ih =>
    obtain ⟨m, hstep, hrest⟩ := runFrom_cons_eq_some.mp hrun
    rw [ih (h.step hstep) hrest (h.issued_mono hstep hissued), h.get?_step hstep hissued]
    by_cases hhead : event = .evict handle
    · rw [if_pos hhead, ite_self, if_pos (hhead ▸ List.mem_cons_self)]
    · rw [if_neg hhead]
      exact if_congr (by rw [List.mem_cons, or_iff_right (Ne.symm hhead)]) rfl rfl

theorem idle_run {agent : Option Agent} {events : List Event}
    (hrun : runFrom TtlEviction.step (.started agent) events = some s) : Idle s :=
  run_invariant (fun _ _ _ h hstep ↦ h.step hstep) (idle_started agent) hrun

/-! ## Whole runs -/

-- The loop never removes anything, so it never does so early.
theorem neverEarly (agent : Option Agent) (events : List Event) :
    NeverEarly (.started agent) events := by
  intro pre registered handle args mid t post before after _ hbefore hafter hmem hgone
  rw [(idle_run hbefore).step_iteration hafter] at hgone
  exact absurd hmem hgone

-- Between two iterations a handle the first one saw goes exactly when it is evicted directly.
theorem gone_iff_evicted {agent : Option Agent} {pre mid : List Event} {t0 t : ℚ}
    {early late : System} {handle : String}
    (hearly : runFrom TtlEviction.step (.started agent) pre = some early)
    (hlate : runFrom TtlEviction.step early (.iteration t0 :: (mid ++ [.iteration t])) = some late)
    (hmem : handle ∈ early.mgr.descriptors) :
    handle ∉ late.mgr.descriptors ↔ .evict handle ∈ mid := by
  have hidle := idle_run hearly
  rw [Dict.not_mem_iff, hidle.get?_run hlate (hidle.issued_of_mem handle hmem)]
  have hmid : Event.evict handle ∈ Event.iteration t0 :: (mid ++ [.iteration t]) ↔
      Event.evict handle ∈ mid := by simp
  rw [if_congr hmid rfl rfl]
  split
  · rename_i hin
    exact iff_of_true rfl hin
  · rename_i hout
    exact iff_of_false (fun hnone ↦ Dict.not_mem_iff.mpr hnone hmem) hout

/-- In a run the loop evicts exactly what has expired just when nothing is left for it to evict:
whatever expires has been evicted directly. -/
theorem ttl_loop_exact_iff (agent : Option Agent) (events : List Event) (final : System)
    (hrun : runFrom TtlEviction.step (.started agent) events = some final) :
    (ExpiredGone (.started agent) events ∧ NeverEarly (.started agent) events) ↔
      EvictedByHand (.started agent) events := by
  constructor
  · -- the run up to the second iteration is a run too; `late` is where it ends
    rintro ⟨hgone, -⟩ pre t0 mid t post early handle desc heq hearly hdesc hexpired
    obtain ⟨late, hlate⟩ : ∃ late, runFrom TtlEviction.step early
        (.iteration t0 :: (mid ++ [.iteration t])) = some late := by
      rw [heq, runFrom_append, hearly, Option.bind_some,
        show Event.iteration t0 :: (mid ++ .iteration t :: post) =
          (.iteration t0 :: (mid ++ [.iteration t])) ++ post by simp] at hrun
      obtain ⟨late, hlate, -⟩ := runFrom_append_eq_some.mp hrun
      exact ⟨late, hlate⟩
    exact (gone_iff_evicted hearly hlate (Dict.mem_iff_exists.mpr ⟨desc, hdesc⟩)).mp
      (hgone pre t0 mid t post early late handle desc heq hearly hdesc hexpired hlate)
  · intro hevicted
    refine ⟨?_, neverEarly agent events⟩
    intro pre t0 mid t post early late handle desc heq hearly hdesc hexpired hlate
    exact (gone_iff_evicted hearly hlate (Dict.mem_iff_exists.mpr ⟨desc, hdesc⟩)).mpr
      (hevicted pre t0 mid t post early handle desc heq hearly hdesc hexpired)

-- A tensor registered at time 0 and evicted directly before its 500 ms are over.
def evictedInTime : List Event :=
  [.registerTensor 0 "kv-0" (kvTensor 0x7F000000), .iteration (1 / 10), .evict "kv-0",
    .iteration 1]

theorem evictedInTime_exact_iff :
    (ExpiredGone (.started none) evictedInTime ∧ NeverEarly (.started none) evictedInTime) ↔
      EvictedByHand (.started none) evictedInTime :=
  ttl_loop_exact_iff none evictedInTime _
    (Option.some_get (show (runFrom step _ evictedInTime).isSome by decide +kernel)).symm

-- A tensor registered at time 0 and left to the loop.
def leftToTheLoop : List Event :=
  [.registerTensor 0 "kv-0" (kvTensor 0x7F000000), .iteration (1 / 10), .iteration 1]

/-- 900 ms after the loop first saw it, a tensor with a TTL of 500 ms is still in the table. -/
theorem expired_tensor_stays : ¬ ExpiredGone (.started none) leftToTheLoop := by
  intro h
  have hgone := h [.registerTensor 0 "kv-0" (kvTensor 0x7F000000)] (1 / 10) [] 1 [] _ _ "kv-0"
    ((kvTensor 0x7F000000).descriptor "kv-0") rfl rfl (by decide +kernel) (by decide +kernel)
    (Option.some_get (show (runFrom step _ [.iteration (1 / 10), .iteration 1]).isSome by
      decide +kernel)).symm
  exact hgone (by decide +kernel)

end AsrServe.DynamoOrchestration.TtlEviction
