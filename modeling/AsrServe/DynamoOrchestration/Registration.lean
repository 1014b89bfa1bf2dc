import AsrServe.DynamoOrchestration.FabricTable
import AsrServe.DynamoOrchestration.Transfers

/-!
# Registering a tensor

`register_tensor` writes the table before it awaits `register_memory`: what the table holds when
the agent raises, and what it shows in the meantime.
-/

open AsrServe.Reasoning

namespace AsrServe.DynamoOrchestration.Transfers

variable {s s' : System}

/-! ## A registration that nothing interleaves with -/

theorem step_registerTensor {agent : Agent} (hagent : s.mgr.nixlAgent = some agent) {call : Nat}
    {handle : String} (args : TensorArgs) (hfresh : handle ∉ s.issued)
    (hnew : call ∉ s.registering) :
    step s (.registerTensor call handle args) = some
      { s with
        mgr := s.mgr.registerBegin (args.descriptor handle)
        issued := handle :: s.issued
        registering := s.registering.set call (args.descriptor handle) } := by
  rw [step, if_neg (not_or.mpr ⟨hfresh, hnew⟩), hagent]
  rfl

theorem step_registerMemoryRaised {call : Nat} {desc : KVCacheDescriptor}
    (hcall : s.registering.get? call = some desc) :
    step s (.registerMemoryRaised call) =
      some { s with registering := s.registering.erase call } := by
  rw [step, hcall]
  rfl

/-- A registration that raises leaves its descriptor in the table. -/
theorem failed_registration {agent : Agent} (hagent : s.mgr.nixlAgent = some agent) {call : Nat}
    {handle : String} (args : TensorArgs) (hfresh : handle ∉ s.issued)
    (hnew : call ∉ s.registering) :
    ∃ s', runFrom step s [.registerTensor call handle args, .registerMemoryRaised call] = some s' ∧
      s'.mgr.descriptors = s.mgr.descriptors.set handle (args.descriptor handle) := by
  have hbegin := step_registerTensor hagent args hfresh hnew
  have hrun := runFrom_cons_eq_some.mpr ⟨_, hbegin, runFrom_singleton.mpr
    (step_registerMemoryRaised (Dict.get?_set_self ..))⟩
  exact ⟨_, hrun, rfl⟩

/-! ## What the table shows -/

/-- A handle is in the table only while the agent holds its region. -/
def Visible (s : System) : Prop :=
  ∀ handle desc, s.mgr.descriptors.get? handle = some desc →
    ∃ agent, s.mgr.nixlAgent = some agent ∧ desc.region ∈ agent.regions

/-- The calls that keep the table to regions the agent holds: `register_tensor` for a region it
holds at the time of the call, `evict` of the only handle that describes its region. -/
def KeepsVisible (s : System) : Event → Prop
  | .registerTensor _ handle args =>
    ∃ agent, s.mgr.nixlAgent = some agent ∧ (args.descriptor handle).region ∈ agent.regions
  | .evict handle =>
    ∀ desc, s.mgr.descriptors.get? handle = some desc →
      ∀ other desc', s.mgr.descriptors.get? other = some desc' → desc'.region = desc.region →
        other = handle
  | _ => True

-- The same two conditions over the entries of the table.
instance (s : System) : ∀ event, Decidable (KeepsVisible s event)
  | .registerTensor _ handle args =>
    decidable_of_iff
      (∃ agent ∈ s.mgr.nixlAgent, (args.descriptor handle).region ∈ agent.regions) Iff.rfl
  | .evict handle =>
    decidable_of_iff
      (∀ desc ∈ s.mgr.descriptors.get? handle, ∀ entry ∈ s.mgr.descriptors.entries,
        entry.2.region = desc.region → entry.1 = handle)
      (forall₂_congr fun _ _ ↦ by
        rw [Prod.forall]
        exact forall₂_congr fun _ _ ↦ imp_congr Dict.mem_entries_iff Iff.rfl)
  | .registerMemoryDone _ | .registerMemoryRaised _ | .transfer .. | .acquire _ | .transferDone ..
  | .transferRaised _ => isTrue trivial

/-- The agent is live and holds the region of every handle in the table. -/
structure Backed (s : System) : Prop where
  live : ∃ agent, s.mgr.nixlAgent = some agent
  visible : Visible s

-- The table and the agent by themselves, as the evictions of the fabric table see them.
theorem Backed.inStep (h : Backed s) : FabricTable.InStep { mgr := s.mgr } := ⟨h.live, h.visible⟩

theorem start_descriptors (s : System) (call : Nat) (c : TransferCall) :
    (start s call c).mgr.descriptors = s.mgr.descriptors := by
  unfold start
  split <;> rfl

theorem start_nixlAgent (s : System) (call : Nat) (c : TransferCall) :
    (start s call c).mgr.nixlAgent = s.mgr.nixlAgent := by
  unfold start
  split <;> rfl

-- A step that leaves the table and the agent alone keeps what the table shows.
theorem visible_congr (htable : s'.mgr.descriptors = s.mgr.descriptors)
    (hagent : s'.mgr.nixlAgent = s.mgr.nixlAgent) : Visible s' ↔ Visible s := by
  rw [Visible, Visible, htable, hagent]

/-- The entry a registration makes is the one thing it can show too early. -/
theorem Backed.visible_registers_iff (h : Backed s) {handle : String} {args : TensorArgs}
    (htable : s'.mgr.descriptors = s.mgr.descriptors.set handle (args.descriptor handle))
    (hagent : s'.mgr.nixlAgent = s.mgr.nixlAgent) :
    Visible s' ↔
      ∃ agent, s.mgr.nixlAgent = some agent ∧ (args.descriptor handle).region ∈ agent.regions := by
  rw [Visible, htable, hagent]
  constructor
  · exact fun hvisible ↦ hvisible handle _ (Dict.get?_set_self ..)
  · intro hheld j desc hj
    rcases Dict.get?_set_cases hj with ⟨-, rfl⟩ | ⟨-, hbefore⟩
    · exact hheld
    · exact h.visible j desc hbefore

theorem nixlAgent_registerMemory {mgr : NixlTransferManager} {agent : Agent}
    (hagent : mgr.nixlAgent = some agent) (desc : KVCacheDescriptor) :
    (mgr.registerMemory desc).nixlAgent = some (agent.registerMemory desc.region) := by
  rw [NixlTransferManager.registerMemory, hagent]
  rfl

-- Memory that is registered only adds to what the agent holds.
theorem Backed.visible_registered (h : Backed s) {desc : KVCacheDescriptor}
    (hmgr : s'.mgr = s.mgr.registerMemory desc) : Visible s' := by
  intro handle other hother
  rw [hmgr] at hother ⊢
  obtain ⟨agent, hagent, hmem⟩ := h.visible handle other hother
  exact ⟨_, nixlAgent_registerMemory hagent desc, List.mem_insert_of_mem hmem⟩

theorem Backed.visible_evict_iff (h : Backed s) (handle : String) :
    Visible { s with mgr := s.mgr.evict handle } ↔ KeepsVisible s (.evict handle) := by
  rw [KeepsVisible]
  cases hdesc : s.mgr.descriptors.get? handle with
  | none =>
    rw [FabricTable.evict_of_none hdesc]
    exact iff_of_true h.visible fun _ hnone ↦ by cases hnone
  | some desc =>
    rw [show Visible { s with mgr := s.mgr.evict handle } ↔ _ from
      h.inStep.agrees_evict_iff hdesc]
    constructor
    · intro hsole desc' hdesc'
      cases hdesc'
      exact hsole
    · exact fun hsole ↦ hsole desc rfl

/-- A step keeps the table to what the agent holds just when its call does. -/
theorem Backed.visible_step_iff (h : Backed s) {event : Event} (hmoves : Moves s event s') :
    Visible s' ↔ KeepsVisible s event := by
  -- a step that leaves the table and the agent alone
  have hsame (htable : s'.mgr.descriptors = s.mgr.descriptors)
      (hagent : s'.mgr.nixlAgent = s.mgr.nixlAgent) : Visible s' ↔ True :=
    iff_of_true ((visible_congr htable hagent).mpr h.visible) trivial
  cases hmoves with
  | registers _ _ => exact h.visible_registers_iff rfl rfl
  | registered _ => exact iff_of_true (h.visible_registered rfl) trivial
  | registerFails _ => exact hsame rfl rfl
  | queues _ _ => exact hsame rfl rfl
  | starts _ _ => exact hsame (start_descriptors ..) (start_nixlAgent ..)
  | acquires _ _ _ => exact hsame (start_descriptors ..) (start_nixlAgent ..)
  | ends _ _ => exact hsame rfl rfl
  | raises _ _ => exact hsame rfl rfl
  | evicts handle => exact h.visible_evict_iff handle

-- No step takes the agent down.
theorem Moves.live {event : Event} (hmoves : Moves s event s')
    (hlive : ∃ agent, s.mgr.nixlAgent = some agent) : ∃ agent, s'.mgr.nixlAgent = some agent := by
  obtain ⟨agent, hagent⟩ := hlive
  cases hmoves with
  | @registered call desc _ => exact ⟨_, nixlAgent_registerMemory hagent desc⟩
  | starts _ _ => exact ⟨agent, (start_nixlAgent ..).trans hagent⟩
  | acquires _ _ _ => exact ⟨agent, (start_nixlAgent ..).trans hagent⟩
  | evicts handle =>
    cases hdesc : s.mgr.descriptors.get? handle with
    | none => exact ⟨agent, by rw [FabricTable.evict_of_none hdesc, hagent]⟩
    | some desc => exact ⟨_, FabricTable.nixlAgent_evict hagent hdesc⟩
  | _ => exact ⟨agent, hagent⟩

/-! ## All or nothing -/

/-- A registration that raises leaves the table as it was only if the table held the same
descriptor under the same handle already; and the table shows only regions the agent holds, in
every state of a run, just when each registration is of a region it holds already and each eviction
of the only handle of its region. -/
theorem registration_iff {agent : Agent} (hagent : s.mgr.nixlAgent = some agent) {call : Nat}
    {handle : String} (args : TensorArgs) (hfresh : handle ∉ s.issued)
    (hnew : call ∉ s.registering) {t : System} (hbacked : Backed t) (events : List Event) :
    (∃ s', runFrom step s [.registerTensor call handle args, .registerMemoryRaised call] = some s' ∧
      (s'.mgr.descriptors = s.mgr.descriptors ↔
        s.mgr.descriptors.get? handle = some (args.descriptor handle))) ∧
    (Along step (fun _ _ t' ↦ Visible t') t events ↔
      Along step (fun t event _ ↦ KeepsVisible t event) t events) := by
  constructor
  · obtain ⟨s', hrun, htable⟩ := failed_registration hagent args hfresh hnew
    refine ⟨s', hrun, ?_⟩
    rw [htable, Dict.set_eq_self_iff]
  · apply along_congr (I := Backed)
    · exact fun t event t' h hstep ↦ h.visible_step_iff (step_moves hstep)
    · exact fun t event t' h hstep hvisible ↦ ⟨(step_moves hstep).live h.live, hvisible⟩
    · exact hbacked

-- A manager whose agent has just come up.
def justStarted : System := .idle { nixlAgent := some {} }

def firstTensor : TensorArgs := kvTensor 0x7F000000

-- A manager whose agent holds the region of the tensor from elsewhere.
def regionHeld : System := .idle { nixlAgent := some { regions := [⟨0, 0x7F000000⟩] } }

theorem backed_regionHeld : Backed regionHeld where
  live := ⟨_, rfl⟩
  visible := fun _ _ hdesc ↦ by cases hdesc

def registerEvict : List Event :=
  [.registerTensor 0 "kv-0" firstTensor, .registerMemoryDone 0, .evict "kv-0"]

theorem justStarted_registration :
    (∃ s', runFrom step justStarted [.registerTensor 0 "kv-0" firstTensor,
        .registerMemoryRaised 0] = some s' ∧
      (s'.mgr.descriptors = justStarted.mgr.descriptors ↔
        justStarted.mgr.descriptors.get? "kv-0" = some (firstTensor.descriptor "kv-0"))) ∧
    Along step (fun _ _ t' ↦ Visible t') regionHeld registerEvict := by
  have h := @registration_iff justStarted {} rfl 0 "kv-0" firstTensor (by decide) (by decide)
    regionHeld backed_regionHeld registerEvict
  exact ⟨h.1, h.2.mpr (by decide +kernel)⟩

/-- The first registration of a manager: when it raises its handle stays in the table, and before
it returns an eviction pass finds the handle there. -/
theorem registration_not_atomic :
    (∃ s', runFrom step justStarted [.registerTensor 0 "kv-0" firstTensor,
        .registerMemoryRaised 0] = some s' ∧
      s'.mgr.descriptors ≠ justStarted.mgr.descriptors) ∧
    ¬ Along step (fun _ _ t' ↦ Visible t') justStarted
      [.registerTensor 0 "kv-0" firstTensor, .evict "kv-0", .registerMemoryDone 0] := by
  constructor
  · refine ⟨_, rfl, fun heq ↦ ?_⟩
    exact absurd (congrArg Dict.keys heq) (by decide +kernel)
  · intro h
    have hvisible := along_iff_split.mp h [] _ _ _ _ rfl rfl rfl
    obtain ⟨agent, hagent, hmem⟩ :=
      hvisible "kv-0" (firstTensor.descriptor "kv-0") (by decide +kernel)
    cases hagent
    exact absurd hmem (by decide +kernel)

end AsrServe.DynamoOrchestration.Transfers
