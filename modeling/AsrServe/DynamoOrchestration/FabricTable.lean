import AsrServe.DynamoOrchestration.Nixl
import AsrServe.Reasoning.Runs

/-!
# Descriptors and fabric registrations

The descriptor table against the regions registered with a live agent, over completed registrations
and evictions.  Handles are fresh; addresses may come again.
-/

open AsrServe.Reasoning

namespace AsrServe.DynamoOrchestration.FabricTable

structure System where
  mgr : NixlTransferManager
  -- Handles handed out so far; `uuid4` never repeats one.
  issued : List String := []

inductive Event where
  | registerTensor (handle : String) (args : TensorArgs)
  | evict (handle : String)
deriving DecidableEq

def step (s : System) : Event → Option System
  | .registerTensor handle args =>
    if handle ∈ s.issued then
      none
    else
      some
        { s with
          mgr := s.mgr.registerTensor (args.descriptor handle)
          issued := handle :: s.issued }
  | .evict handle => some { s with mgr := s.mgr.evict handle }

-- A manager whose agent has come up, whatever else is registered with the agent.
def System.live (agent : Agent) : System where
  mgr := { nixlAgent := some agent }

/-- The region is registered with the agent. -/
def System.Registered (s : System) (region : Region) : Prop :=
  ∃ agent, s.mgr.nixlAgent = some agent ∧ region ∈ agent.regions

/-- Every handle in the table describes registered memory. -/
def Agrees (s : System) : Prop :=
  ∀ handle desc, s.mgr.descriptors.get? handle = some desc → s.Registered desc.region

/-- An eviction removes a handle whose memory no other handle in the table describes. -/
def EvictsSoleOwner (s : System) (event : Event) (_ : System) : Prop :=
  ∀ handle desc, event = .evict handle → s.mgr.descriptors.get? handle = some desc →
    ∀ other desc', s.mgr.descriptors.get? other = some desc' → desc'.region = desc.region →
      other = handle

/-! ## One event -/

variable {s s' : System}

theorem step_registerTensor {handle : String} {args : TensorArgs}
    (hstep : step s (.registerTensor handle args) = some s') :
    s'.mgr = s.mgr.registerTensor (args.descriptor handle) := by
  rw [step, Option.ite_none_left_eq_some, Option.some.injEq] at hstep
  obtain ⟨-, rfl⟩ := hstep
  rfl

-- The agent stays live, and the regions it knows change as its own calls say.
theorem nixlAgent_registerTensor {mgr : NixlTransferManager} {agent : Agent}
    (hagent : mgr.nixlAgent = some agent) (desc : KVCacheDescriptor) :
    (mgr.registerTensor desc).nixlAgent = some (agent.registerMemory desc.region) := by
  show mgr.nixlAgent.map (·.registerMemory desc.region) = _
  rw [hagent]
  rfl

theorem nixlAgent_evict {mgr : NixlTransferManager} {agent : Agent} {handle : String}
    {desc : KVCacheDescriptor} (hagent : mgr.nixlAgent = some agent)
    (hdesc : mgr.descriptors.get? handle = some desc) :
    (mgr.evict handle).nixlAgent = some (agent.deregisterMemory desc.region) := by
  rw [NixlTransferManager.evict, hdesc]
  show mgr.nixlAgent.map (·.deregisterMemory desc.region) = _
  rw [hagent]
  rfl

theorem evict_of_none {mgr : NixlTransferManager} {handle : String}
    (hdesc : mgr.descriptors.get? handle = none) : mgr.evict handle = mgr := by
  rw [NixlTransferManager.evict, hdesc]

/-- The agent is live and knows the memory of every handle. -/
structure InStep (s : System) : Prop where
  live : ∃ agent, s.mgr.nixlAgent = some agent
  agrees : Agrees s

theorem InStep.registerTensor (h : InStep s) {handle : String} {args : TensorArgs}
    (hstep : step s (.registerTensor handle args) = some s') : InStep s' := by
  obtain ⟨agent, hagent⟩ := h.live
  have hafter := nixlAgent_registerTensor hagent (args.descriptor handle)
  rw [← step_registerTensor hstep] at hafter
  refine ⟨⟨_, hafter⟩, ?_⟩
  intro j desc hj
  refine ⟨_, hafter, ?_⟩
  rw [step_registerTensor hstep] at hj
  change (s.mgr.descriptors.set handle (args.descriptor handle)).get? j = some desc at hj
  rcases Dict.get?_set_cases hj with ⟨-, rfl⟩ | ⟨-, hold⟩
  · exact List.mem_insert_self
  · obtain ⟨agent', hagent', hmem⟩ := h.agrees j desc hold
    rw [hagent, Option.some.injEq] at hagent'
    exact List.mem_insert_of_mem (hagent' ▸ hmem)

-- After the eviction of a live handle the rest of the table is in step just when nothing in it
-- describes the memory that was deregistered.
theorem InStep.agrees_evict_iff (h : InStep s) {handle : String} {desc : KVCacheDescriptor}
    (hdesc : s.mgr.descriptors.get? handle = some desc) :
    Agrees { s with mgr := s.mgr.evict handle } ↔
      ∀ other desc', s.mgr.descriptors.get? other = some desc' → desc'.region = desc.region →
        other = handle := by
  obtain ⟨agent, hagent⟩ := h.live
  have hafter := nixlAgent_evict hagent hdesc
  have hregistered (region : Region) :
      System.Registered { s with mgr := s.mgr.evict handle } region ↔
        region ∈ agent.regions ∧ region ≠ desc.region := by
    simp [System.Registered, hafter, Agent.deregisterMemory]
  have hgone (other : String) (desc' : KVCacheDescriptor) :
      (s.mgr.evict handle).descriptors.get? other = some desc' ↔
        other ≠ handle ∧ s.mgr.descriptors.get? other = some desc' := by
    rw [NixlTransferManager.get?_evict]
    by_cases heq : other = handle <;> simp [heq]
  constructor
  · intro hagrees other desc' hother hsame
    by_contra hne
    have hreg := hagrees other desc' ((hgone other desc').mpr ⟨hne, hother⟩)
    exact ((hregistered _).mp hreg).2 hsame
  · intro hsole other desc' hother
    obtain ⟨hne, hold⟩ := (hgone other desc').mp hother
    obtain ⟨agent', hagent', hmem⟩ := h.agrees other desc' hold
    rw [hagent, Option.some.injEq] at hagent'
    apply (hregistered _).mpr
    exact ⟨hagent' ▸ hmem, fun hsame ↦ hne (hsole other desc' hold hsame)⟩

theorem InStep.agrees_iff (h : InStep s) {event : Event} (hstep : step s event = some s') :
    Agrees s' ↔ EvictsSoleOwner s event s' := by
  cases event with
  | registerTensor handle args =>
    apply iff_of_true (h.registerTensor hstep).agrees
    intro j desc heq
    cases heq
  | evict handle =>
    cases hstep
    cases hdesc : s.mgr.descriptors.get? handle with
    | none =>
      apply iff_of_true
      · rw [evict_of_none hdesc]
        exact h.agrees
      · intro j desc heq hj
        cases heq
        rw [hdesc] at hj
        cases hj
    | some desc =>
      rw [h.agrees_evict_iff hdesc]
      constructor
      · intro hsole j desc' heq hj
        cases heq
        rw [hdesc] at hj
        cases hj
        exact hsole
      · exact fun hsole ↦ hsole handle desc rfl hdesc

theorem live_step (hlive : ∃ agent, s.mgr.nixlAgent = some agent) {event : Event}
    (hstep : step s event = some s') : ∃ agent, s'.mgr.nixlAgent = some agent := by
  obtain ⟨agent, hagent⟩ := hlive
  cases event with
  | registerTensor handle args =>
    rw [step_registerTensor hstep]
    exact ⟨_, nixlAgent_registerTensor hagent _⟩
  | evict handle =>
    cases hstep
    cases hdesc : s.mgr.descriptors.get? handle with
    | none => exact ⟨agent, by rw [evict_of_none hdesc, hagent]⟩
    | some desc => exact ⟨_, nixlAgent_evict hagent hdesc⟩

/-! ## Whole runs -/

/-- In every state of a run all handles describe registered memory just when every eviction is of
the only handle that describes its memory. -/
theorem table_agrees_iff (agent : Agent) (events : List Event) :
    Along step (fun _ _ s' ↦ Agrees s') (.live agent) events ↔
      Along step EvictsSoleOwner (.live agent) events := by
  apply along_congr (I := InStep)
  · exact fun s event s' h hstep ↦ h.agrees_iff hstep
  · exact fun s event s' h hstep hagrees ↦ ⟨live_step h.live hstep, hagrees⟩
  · refine ⟨⟨agent, rfl⟩, fun handle desc hget ↦ ?_⟩
    cases hget

-- Two prefills whose tensors come to lie at one address.
def sameAddress : List Event :=
  [.registerTensor "kv-0" (kvTensor 0x80000000), .registerTensor "kv-1" (kvTensor 0x80000000)]

/-- Evicting the first handle deregisters the memory of the second, which stays in the table. -/
theorem eviction_unregisters_other :
    ¬ Along step (fun _ _ s' ↦ Agrees s') (.live {}) (sameAddress ++ [.evict "kv-0"]) := by
  intro h
  have hagrees := along_iff_split.mp h sameAddress (.evict "kv-0") [] _ _ rfl rfl rfl
  obtain ⟨agent, hagent, hmem⟩ :=
    hagrees "kv-1" ((kvTensor 0x80000000).descriptor "kv-1") (by decide +kernel)
  cases hagent
  exact absurd hmem (by decide +kernel)

end AsrServe.DynamoOrchestration.FabricTable
