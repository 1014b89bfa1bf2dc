import AsrServe.VadEdge.VerdictHistory

/-!
# What the wrapper reads back (`wasm_vad_classify` in `vad-edge/src/dpdk_pipeline.c`)

The call of `wasmtime_func_call` through its out-parameters.  The local variables of the wrapper
are stack slots: one that is declared without an initializer holds what was there before, until
something is written to it.  The runtime behind the calls is a parameter.
-/

namespace AsrServe.VadEdge.Wasmtime

open Wasm
open Pipeline hiding wasmVadClassify

abbrev Pointer := BitVec 64

def null : Pointer := 0#64

/-- A pointer to something that exists. -/
structure Handle where
  ptr : Pointer
  ne_null : ptr ≠ null

inductive ExternKind where
  | memory
  -- A function, a global or a table, or what stale bytes may say.
  | other (code : UInt8)
deriving DecidableEq, Repr

-- `wasmtime_extern_t`, the payload of its union a number.
structure Extern where
  kind : ExternKind
  of : Nat
deriving DecidableEq, Repr

/-- The local variables whose content depends on what was written to them. -/
structure Slots where
  error : Pointer
  trap : Pointer
  memExt : Extern
  result : BitVec 32

/-- How a call of `wasmtime_func_call` ends: it writes `*trap` only when there is a trap, and
`*results` only when the function has returned. -/
inductive CallEnd where
  | completes (result : BitVec 32)
  -- What is returned beside a trap is left open.
  | traps (trap : Handle) (error : Pointer)
  -- An error without a trap: the call was not possible.
  | fails (error : Handle)

-- The trap the runtime has produced.
def CallEnd.trap? : CallEnd → Option Handle
  | .completes _ => none
  | .traps trap _ => some trap
  | .fails _ => none

-- The assignment to `error`, with what the runtime writes through the out-parameters.
def CallEnd.write (slots : Slots) : CallEnd → Slots
  | .completes result => { slots with error := null, result := result }
  | .traps trap error => { slots with error := error, trap := trap.ptr }
  | .fails error => { slots with error := error.ptr }

/-- The calls of the runtime, on the state behind `wasm_store`. -/
structure Runtime (Store : Type) where
  -- `wasmtime_instance_export_get`, which writes the item it finds.
  exportGet : Store → String → Option Extern
  -- What `wasmtime_memory_data` points at, and the store after a write there.
  memoryData : Store → Nat → Memory
  writeMemory : Store → Nat → Memory → Store
  -- `wasmtime_func_call` of the classifier.
  funcCall : Store → BitVec 32 → BitVec 32 → CallEnd × Store

/-- A call of the wrapper: what its local variables hold before it, and what it is called on. -/
structure Invocation (Store : Type) where
  slots : Slots
  store : Store
  frame : List UInt8
  samples : Samples

inductive Deletion where
  -- `wasmtime_error_delete` and `wasm_trap_delete`.
  | error (ptr : Pointer)
  | trap (ptr : Pointer)
deriving DecidableEq, Repr

/-- What a call of the wrapper returns, deletes and leaves. -/
structure Classified (Store : Type) where
  verdict : Int
  deleted : List Deletion := []
  store : Store

variable {Store : Type}

-- The part after `wasmtime_func_call`.
def readBack (slots : Slots) (store : Store) : Classified Store :=
  if slots.error ≠ null ∨ slots.trap ≠ null then
    { verdict := -1
      deleted := (if slots.error ≠ null then [.error slots.error] else []) ++
        (if slots.trap ≠ null then [.trap slots.trap] else [])
      store := store }
  else
    { verdict := if slots.result ≠ 0#32 then 1 else 0, store := store }

/-- `wasm_vad_classify`. -/
def wasmVadClassify (rt : Runtime Store) (call : Invocation Store) : Classified Store :=
  let (found, slots) := match rt.exportGet call.store "memory" with
    | some ext => (true, { call.slots with memExt := ext })
    | none => (false, call.slots)
  if !found || slots.memExt.kind ≠ .memory then
    { verdict := -1, store := call.store }
  else
    match stage (rt.memoryData call.store slots.memExt.of) call.frame call.samples with
    | none => { verdict := -1, store := call.store }
    | some memory =>
      let store := rt.writeMemory call.store slots.memExt.of memory
      -- the initializer of `result` names the kind and leaves zero for the value
      let slots := { slots with result := 0#32 }
      let (ended, store) := rt.funcCall store (BitVec.ofNat 32 wasmBufOffset)
        (BitVec.ofNat 32 call.samples.nSamples)
      readBack (ended.write slots) store

/-! ## What the runtime says -/

/-- How the runtime ends the call, if the wrapper gets as far as calling it, and the store it
leaves: a matter of the store, the frame and the runtime alone. -/
def Invocation.ended (rt : Runtime Store) (call : Invocation Store) : Option (CallEnd × Store) :=
  match rt.exportGet call.store "memory" with
  | some { kind := .memory, of } =>
    (stage (rt.memoryData call.store of) call.frame call.samples).map fun memory ↦
      rt.funcCall (rt.writeMemory call.store of memory) (BitVec.ofNat 32 wasmBufOffset)
        (BitVec.ofNat 32 call.samples.nSamples)
  | _ => none

/-- Only what the runtime wrote in the call is trusted: the result of a call that has completed is
the verdict, and no trap is deleted but the one the runtime has produced. -/
structure Trusts (ended : Option CallEnd) (c : Classified Store) : Prop where
  verdict_eq : ∀ result, ended = some (.completes result) →
    c.verdict = if result = 0#32 then 0 else 1
  deletes_own : ∀ ptr, .trap ptr ∈ c.deleted → ∃ trap, ended.bind CallEnd.trap? = some trap ∧
    trap.ptr = ptr

def Invocation.TrustsRuntime (rt : Runtime Store) (call : Invocation Store) : Prop :=
  Trusts ((call.ended rt).map Prod.fst) (wasmVadClassify rt call)

-- The `trap` slot happens to be null, if the runtime is called and does not write it.
def Invocation.NullUnlessTrap (rt : Runtime Store) (call : Invocation Store) : Prop :=
  ∀ ended store, call.ended rt = some (ended, store) → ended.trap? = none → call.slots.trap = null

/-! ## One call -/

/-- What a call of the wrapper comes to, told by how the runtime has ended and by what the `trap`
slot held before. -/
def CallEnd.classified (trap : Pointer) (store : Store) : CallEnd → Classified Store
  | .completes result =>
    if trap = null then { verdict := if result = 0#32 then 0 else 1, store := store }
    else { verdict := -1, deleted := [.trap trap], store := store }
  | .traps produced error =>
    { verdict := -1
      deleted := (if error = null then [] else [.error error]) ++ [.trap produced.ptr]
      store := store }
  | .fails error =>
    { verdict := -1
      deleted := [.error error.ptr] ++ if trap = null then [] else [.trap trap]
      store := store }

theorem readBack_write (slots : Slots) (store : Store) (ended : CallEnd) :
    readBack (ended.write slots) store = ended.classified slots.trap store := by
  cases ended with
  | completes result =>
    unfold readBack CallEnd.write CallEnd.classified
    by_cases htrap : slots.trap = null
    · simp [htrap]
    · simp [htrap]
  | traps trap error =>
    unfold readBack CallEnd.write CallEnd.classified
    simp [trap.ne_null]
  | fails error =>
    unfold readBack CallEnd.write CallEnd.classified
    simp [error.ne_null]

/-- Of all that the slots held before, only the content of `trap` is ever read. -/
theorem wasmVadClassify_eq (rt : Runtime Store) (call : Invocation Store) :
    wasmVadClassify rt call = match call.ended rt with
      | none => { verdict := -1, store := call.store }
      | some (ended, store) => ended.classified call.slots.trap store := by
  rw [wasmVadClassify, Invocation.ended]
  cases rt.exportGet call.store "memory" with
  | none => rfl
  | some ext =>
    obtain ⟨kind, of⟩ := ext
    cases kind with
    | other code => rfl
    | memory =>
      dsimp only
      rw [if_neg (by simp)]
      cases stage (rt.memoryData call.store of) call.frame call.samples with
      | none => rfl
      | some memory => exact readBack_write _ _ _

/-- A pointer deleted as a trap is the trap that was produced, or what the slot held before. -/
theorem trap_mem_deleted {trap ptr : Pointer} {store : Store} {ended : CallEnd} :
    .trap ptr ∈ (ended.classified trap store).deleted ↔
      (∃ produced, ended.trap? = some produced ∧ produced.ptr = ptr) ∨
        ended.trap? = none ∧ trap ≠ null ∧ ptr = trap := by
  cases ended with
  | completes result =>
    rw [CallEnd.classified, CallEnd.trap?]
    by_cases htrap : trap = null
    · simp [htrap]
    · simp [htrap]
  | traps produced error =>
    rw [CallEnd.classified, CallEnd.trap?]
    by_cases herror : error = null
    · simp [herror, eq_comm]
    · simp [herror, eq_comm]
  | fails error =>
    rw [CallEnd.classified, CallEnd.trap?]
    by_cases htrap : trap = null
    · simp [htrap]
    · simp [htrap]

theorem trusts_classified_iff (trap : Pointer) (store : Store) (ended : CallEnd) :
    Trusts (some ended) (ended.classified trap store) ↔ (ended.trap? = none → trap = null) := by
  constructor
  · intro h hquiet
    by_contra hstale
    -- the stale pointer is deleted, and the runtime has produced none
    obtain ⟨produced, hproduced, -⟩ :=
      h.deletes_own trap (trap_mem_deleted.mpr (.inr ⟨hquiet, hstale, rfl⟩))
    rw [Option.bind_some, hquiet] at hproduced
    cases hproduced
  · intro h
    constructor
    case verdict_eq =>
      intro result hresult
      cases hresult
      rw [CallEnd.classified, if_pos (h rfl)]
    case deletes_own =>
      intro ptr hptr
      rcases trap_mem_deleted.mp hptr with hown | ⟨hquiet, hstale, -⟩
      · exact hown
      · exact absurd (h hquiet) hstale

/-- A call trusts only what the runtime wrote just when the runtime was not called, or wrote the
`trap` slot, or found it null. -/
theorem trustsRuntime_iff (rt : Runtime Store) (call : Invocation Store) :
    call.TrustsRuntime rt ↔ call.NullUnlessTrap rt := by
  unfold Invocation.TrustsRuntime Invocation.NullUnlessTrap
  rw [wasmVadClassify_eq]
  cases call.ended rt with
  | none =>
    refine iff_of_true ⟨fun result h ↦ ?_, fun ptr h ↦ ?_⟩ fun ended store h ↦ ?_
    · cases h
    · cases h
    · cases h
  | some p =>
    obtain ⟨ended, store⟩ := p
    show Trusts (some ended) (ended.classified call.slots.trap store) ↔ _
    rw [trusts_classified_iff]
    constructor
    · intro h ended' store' heq
      cases heq
      exact h
    · exact fun h ↦ h ended store rfl

/-! ## Runs -/

/-- The store between two frames, and the calls of the wrapper so far. -/
structure History (Store : Type) where
  store : Store
  calls : List (Invocation Store) := []

/-- The wrapper as the classifier of the polling loop.  The slots hold `stack k` before the call
that `k` others came before: leftovers of these, or of anything else. -/
def wrapperEnv (rt : Runtime Store) (stack : Nat → Slots) (txBurst : Nat → Bool) :
    Env (History Store) where
  wasmVadClassify h frame samples :=
    let slots := stack h.calls.length
    let call : Invocation Store := { slots, store := h.store, frame, samples }
    let c := wasmVadClassify rt call
    (c.verdict, { store := c.store, calls := h.calls ++ [call] })
  txBurst := txBurst

def run (rt : Runtime Store) (stack : Nat → Slots) (txBurst : Nat → Bool) (store : Store)
    (bursts : List Burst) : State (History Store) :=
  pipelineRun (wrapperEnv rt stack txBurst) (State.start { store }) bursts

/-- The calls are those the verdicts come from, each made with what the stack then held. -/
structure Recorded (rt : Runtime Store) (stack : Nat → Slots) (st : State (History Store)) :
    Prop where
  verdicts_eq : st.verdicts = st.wasm.calls.map fun call ↦ (wasmVadClassify rt call).verdict
  slots_eq : ∀ k call, st.wasm.calls[k]? = some call → call.slots = stack k

theorem Recorded.handleFrame {rt : Runtime Store} {stack : Nat → Slots}
    {st : State (History Store)} (h : Recorded rt stack st) (txBurst : Nat → Bool)
    (frame : List UInt8) :
    Recorded rt stack (handleFrame (wrapperEnv rt stack txBurst) st frame) := by
  constructor
  case verdicts_eq =>
    rw [handleFrame_verdicts, handleFrame_wasm, h.verdicts_eq]
    cases frameSamples frame.length with
    | none => exact List.append_nil _
    | some samples =>
      show _ = List.map _ (st.wasm.calls ++ [_])
      rw [List.map_append]
      rfl
  case slots_eq =>
    intro k call hcall
    rw [handleFrame_wasm] at hcall
    cases hgate : frameSamples frame.length with
    | none =>
      rw [hgate] at hcall
      exact h.slots_eq k call hcall
    | some samples =>
      rw [hgate] at hcall
      replace hcall : (st.wasm.calls ++ [_])[k]? = some call := hcall
      rcases Nat.lt_trichotomy k st.wasm.calls.length with hlt | rfl | hgt
      · rw [List.getElem?_append_left hlt] at hcall
        exact h.slots_eq k call hcall
      · rw [List.getElem?_concat_length] at hcall
        cases hcall
        rfl
      · rw [List.getElem?_eq_none (by rw [List.length_append]; exact hgt)] at hcall
        cases hcall

theorem recorded_run (rt : Runtime Store) (stack : Nat → Slots) (txBurst : Nat → Bool)
    (store : Store) (bursts : List Burst) :
    Recorded rt stack (run rt stack txBurst store bursts) :=
  pipelineRun_invariant (fun _ frame h ↦ h.handleFrame txBurst frame)
    ⟨rfl, fun k call hcall ↦ by cases hcall⟩ bursts

-- A run of one frame that passes the gate makes one call.
theorem calls_single (rt : Runtime Store) (stack : Nat → Slots) (txBurst : Nat → Bool)
    (store : Store) {burst : Burst} {frame : List UInt8} {samples : Samples}
    (hburst : burst.frames = [frame]) (hgate : frameSamples frame.length = some samples) :
    (run rt stack txBurst store [burst]).wasm.calls =
      [{ slots := stack 0, store, frame, samples }] := by
  show (burst.frames.foldl (handleFrame (wrapperEnv rt stack txBurst))
    (State.start { store })).wasm.calls = _
  rw [hburst, List.foldl_cons, List.foldl_nil, handleFrame_wasm, hgate]
  rfl

/-- Whatever the frames, the runtime and the stack: the verdicts of a run are those of its calls,
and its calls all trust only what the runtime wrote just when the uninitialized `trap` is null
before every call that reaches the runtime and does not trap. -/
theorem wrapper_trusts_iff (rt : Runtime Store) (stack : Nat → Slots) (txBurst : Nat → Bool)
    (store : Store) (bursts : List Burst) :
    let st := run rt stack txBurst store bursts
    st.verdicts = st.wasm.calls.map (fun call ↦ (wasmVadClassify rt call).verdict) ∧
      ((∀ call ∈ st.wasm.calls, call.TrustsRuntime rt) ↔
        ∀ k call ended left, st.wasm.calls[k]? = some call →
          call.ended rt = some (ended, left) → ended.trap? = none → (stack k).trap = null) := by
  intro st
  have hrecorded := recorded_run rt stack txBurst store bursts
  refine ⟨hrecorded.verdicts_eq, ?_⟩
  constructor
  · intro h k call ended left hk hended hquiet
    rw [← hrecorded.slots_eq k call hk]
    exact (trustsRuntime_iff rt call).mp (h call (List.mem_of_getElem? hk)) ended left hended hquiet
  · intro h call hmem
    obtain ⟨k, hk⟩ := List.mem_iff_getElem?.mp hmem
    apply (trustsRuntime_iff rt call).mpr
    intro ended left hended hquiet
    rw [hrecorded.slots_eq k call hk]
    exact h k call ended left hk hended hquiet

/-! ## The repository's own module -/

/-- The runtime with an instance of the module behind it, and the trap it would produce. -/
def moduleRuntime (trap : Handle) : Runtime Instance where
  exportGet _ name := if name = "memory" then some { kind := .memory, of := 0 } else none
  memoryData inst _ := inst.memory
  writeMemory inst _ memory := { inst with memory := memory }
  funcCall inst ptr nSamples :=
    let run := Exec.vadClassify ptr nSamples inst
    match run.outcome with
    | .value result => (.completes result, run.inst)
    | _ => (.traps trap null, run.inst)

theorem module_ended (trap : Handle) (call : Invocation Instance) :
    call.ended (moduleRuntime trap) =
      (stage call.store.memory call.frame call.samples).map fun memory ↦
        (moduleRuntime trap).funcCall { call.store with memory := memory }
          (BitVec.ofNat 32 wasmBufOffset) (BitVec.ofNat 32 call.samples.nSamples) := rfl

/-- From a null slot the wrapper is the classifier that needs no out-parameters. -/
theorem wasmVadClassify_module {trap : Handle} {call : Invocation Instance}
    (h : call.slots.trap = null) :
    ((wasmVadClassify (moduleRuntime trap) call).verdict,
        (wasmVadClassify (moduleRuntime trap) call).store) =
      Pipeline.wasmVadClassify call.store call.frame call.samples := by
  rw [wasmVadClassify_eq, module_ended, Pipeline.wasmVadClassify, h]
  cases stage call.store.memory call.frame call.samples with
  | none => rfl
  | some memory =>
    dsimp only [Option.map_some, moduleRuntime, callVadClassify]
    cases (Exec.vadClassify (BitVec.ofNat 32 wasmBufOffset)
      (BitVec.ofNat 32 call.samples.nSamples) { call.store with memory := memory }).outcome with
    | value result => rfl
    | trap => rfl
    | outOfFuel => rfl

/-- On a stack whose `trap` slots are all null, the loop makes the calls it makes with that
classifier. -/
theorem run_module {stack : Nat → Slots} (h : ∀ k, (stack k).trap = null) (trap : Handle)
    (txBurst : Nat → Bool) (inst : Instance) (bursts : List Burst) :
    Related (fun (history : History Instance) inst' ↦ history.store = inst')
      (run (moduleRuntime trap) stack txBurst inst bursts)
      (pipelineRun (wasmEnv txBurst) (State.start inst) bursts) := by
  refine Related.pipelineRun ?_ ?_ ?_ bursts
  · rfl
  · rintro history inst' rfl frame samples
    let call : Invocation Instance :=
      { slots := stack history.calls.length, store := history.store, frame, samples }
    have hnull : call.slots.trap = null := h _
    exact Prod.ext_iff.mp (wasmVadClassify_module hnull)
  · exact ⟨rfl, rfl, rfl, rfl⟩

theorem module_completes (trap : Handle) {call : Invocation Instance} {result : BitVec 32}
    (hgate : frameSamples call.frame.length = some call.samples)
    (h : secondStage call.store call.frame = some (.value result)) :
    ∃ inst, call.ended (moduleRuntime trap) = some (.completes result, inst) := by
  rw [secondStage, hgate, Option.bind_some] at h
  obtain ⟨memory, hstage, hvalue⟩ := Option.map_eq_some_iff.mp h
  rw [vadClassify, vadClassifyWith, ← Exec.vadClassify] at hvalue
  rw [module_ended, hstage]
  dsimp only [Option.map_some, moduleRuntime]
  rw [hvalue]
  exact ⟨_, rfl⟩

-- A loud frame, and a stack on which the slot of `trap` holds the address of something else.
def loudSamples : List UInt8 := List.replicate 694 7

def staleSlots : Slots where
  error := null
  trap := 0x7ffd0010#64
  memExt := { kind := .memory, of := 0 }
  result := 0#32

def someTrap : Handle := ⟨0x1000#64, by decide⟩

def loudBurst : Burst := ⟨[loudSamples], Nat.le_of_ble_eq_true rfl⟩

def loudCall : Invocation Instance where
  slots := staleSlots
  store := freshInstance
  frame := loudSamples
  samples := { audioPtr := hdrLen, nSamples := (694 - hdrLen) / 2 }

def staleRun : State (History Instance) :=
  run (moduleRuntime someTrap) (fun _ ↦ staleSlots) (fun _ ↦ true) freshInstance [loudBurst]

theorem loudCall_gate : frameSamples loudCall.frame.length = some loudCall.samples := by
  have hlen : loudCall.frame.length = 694 := List.length_replicate
  rw [hlen]
  exact frameSamples_of_le (Nat.le_refl 694)

theorem staleRun_calls : staleRun.wasm.calls = [loudCall] := by
  have hburst : loudBurst.frames = [loudSamples] := rfl
  rw [staleRun, calls_single _ _ _ _ hburst loudCall_gate]
  rfl

-- The module calls the samples speech.
theorem loudCall_completes :
    ∃ inst, loudCall.ended (moduleRuntime someTrap) = some (.completes 1#32, inst) := by
  have hlen : loudSamples.length = 694 := List.length_replicate
  have hloud : isSpeech freshInstance.energyThreshold.toInt freshInstance.zcrThreshold.toInt
      (frameAudio loudSamples) = true := by
    rw [frameAudio_eq_samplesOf]
    decide +kernel
  apply module_completes someTrap loudCall_gate
  show secondStage freshInstance loudSamples = some (.value 1#32)
  rw [secondStage_eq freshInstance loudSamples hlen.ge rfl (by rw [hlen]; decide), hloud]
  rfl

/-- The module says speech; the stale pointer is deleted as a trap and the frame is dropped. -/
theorem stale_slot_taken_for_trap :
    staleRun.wasm.calls = [loudCall] ∧
      (loudCall.ended (moduleRuntime someTrap)).map Prod.fst = some (.completes 1#32) ∧
      staleRun.verdicts = [-1] ∧
      (wasmVadClassify (moduleRuntime someTrap) loudCall).deleted = [.trap staleSlots.trap] ∧
      ¬ ∀ call ∈ staleRun.wasm.calls, call.TrustsRuntime (moduleRuntime someTrap) := by
  obtain ⟨inst, hended⟩ := loudCall_completes
  have hstale : ¬ loudCall.slots.trap = null := by decide
  have hclassified : wasmVadClassify (moduleRuntime someTrap) loudCall =
      { verdict := -1, deleted := [.trap staleSlots.trap], store := inst } := by
    rw [wasmVadClassify_eq, hended]
    show CallEnd.classified _ inst (.completes 1#32) = _
    rw [CallEnd.classified, if_neg hstale]
    rfl
  have hrecorded : Recorded (moduleRuntime someTrap) (fun _ ↦ staleSlots) staleRun :=
    recorded_run ..
  refine ⟨staleRun_calls, congrArg (Option.map Prod.fst) hended, ?_,
    congrArg Classified.deleted hclassified, fun h ↦ ?_⟩
  · rw [hrecorded.verdicts_eq, staleRun_calls, List.map_singleton, hclassified]
  · have htrusts := h loudCall (staleRun_calls ▸ List.mem_singleton_self loudCall)
    have hverdict := htrusts.verdict_eq 1#32 (congrArg (Option.map Prod.fst) hended)
    rw [hclassified] at hverdict
    exact absurd (show (-1 : Int) = if 1#32 = 0#32 then 0 else 1 from hverdict) (by decide)

end AsrServe.VadEdge.Wasmtime
