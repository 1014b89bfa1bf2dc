import AsrServe.DynamoOrchestration.WorkerLoad

/-!
# Handing a KV cache over

What a decode worker makes of the handle a prefill worker has given out.  Each worker was built by
its own constructor and has a transfer manager of its own.
-/

open AsrServe.Reasoning

namespace AsrServe.DynamoOrchestration.Worker

-- A worker after its constructor and `start`; `none` is stub mode.
def System.started (role : RequestPhase) (config : WorkerConfig) (agent : Option Agent) : System :=
  .idle role config { nixlAgent := agent }

-- The request as the router passes it on.
def decodeRequest (request : ASRRequest) (handle : String) : ASRRequest :=
  { request with phase := .decode, kvHandle := some handle }

/-- Given the handle of `desc`, the decode worker goes on to transfer `desc`. -/
def HandleUsable (d : System) (request : ASRRequest) (desc : KVCacheDescriptor) : Prop :=
  ∀ objectId handle,
    d.worker.handleRequest (decodeRequest request desc.handle) objectId handle d.locked =
      if d.locked then (d.worker.enter, .waiting desc)
      else d.worker.enter.startTransfer request.requestId desc

-- The descriptor a prefill call has made.
def CallPhase.handed : CallPhase → Option KVCacheDescriptor
  | .registering desc | .returned (.descriptor desc) => some desc
  | _ => none

/-! ## The descriptor table under a request -/

theorem startTransfer_frame (w : DynamoWorker) (requestId : String) (desc : KVCacheDescriptor) :
    (w.startTransfer requestId desc).1.role = w.role ∧
      (w.startTransfer requestId desc).1.nixl.descriptors = w.nixl.descriptors ∧
      (w.startTransfer requestId desc).2.handed = none := by
  unfold DynamoWorker.startTransfer
  dsimp only
  split <;> exact ⟨rfl, rfl, rfl⟩

-- A prefill files at most the one descriptor it makes, under the fresh handle.
theorem processPrefill_frame (w : DynamoWorker) (request : ASRRequest) (objectId : Int)
    (handle : String) :
    (w.processPrefill request objectId handle).1.role = w.role ∧
      ((w.processPrefill request objectId handle).1.nixl.descriptors = w.nixl.descriptors ∧
          (w.processPrefill request objectId handle).2.handed = none ∨
        ∃ desc, desc.handle = handle ∧
          (w.processPrefill request objectId handle).1.nixl.descriptors =
            w.nixl.descriptors.set handle desc ∧
          (w.processPrefill request objectId handle).2.handed = some desc) := by
  unfold DynamoWorker.processPrefill
  dsimp only
  split
  · exact ⟨rfl, .inl ⟨rfl, rfl⟩⟩
  · split
    · exact ⟨rfl, .inr ⟨_, rfl, rfl, rfl⟩⟩
    · exact ⟨rfl, .inr ⟨_, rfl, rfl, rfl⟩⟩

theorem processDecode_frame (w : DynamoWorker) (request : ASRRequest) (locked : Bool) :
    (w.processDecode request locked).1.role = w.role ∧
      (w.processDecode request locked).1.nixl.descriptors = w.nixl.descriptors ∧
      (w.processDecode request locked).2.handed = none := by
  unfold DynamoWorker.processDecode
  dsimp only
  split
  · exact ⟨rfl, rfl, rfl⟩
  · split
    · exact ⟨rfl, rfl, rfl⟩
    · split
      · exact ⟨rfl, rfl, rfl⟩
      · exact startTransfer_frame w.enter ..

/-- A request leaves the table alone, or it is a prefill that files its descriptor. -/
theorem handleRequest_frame (w : DynamoWorker) (request : ASRRequest) (objectId : Int)
    (handle : String) (locked : Bool) :
    (w.handleRequest request objectId handle locked).1.role = w.role ∧
      ((w.handleRequest request objectId handle locked).1.nixl.descriptors = w.nixl.descriptors ∧
          (w.handleRequest request objectId handle locked).2.handed = none ∨
        w.role = .prefill ∧ ∃ desc, desc.handle = handle ∧
          (w.handleRequest request objectId handle locked).1.nixl.descriptors =
            w.nixl.descriptors.set handle desc ∧
          (w.handleRequest request objectId handle locked).2.handed = some desc) := by
  unfold DynamoWorker.handleRequest
  split
  · rename_i hrole
    obtain ⟨hkept, hcase⟩ := processPrefill_frame w request objectId handle
    exact ⟨hkept, hcase.imp_right fun h ↦ ⟨hrole, h⟩⟩
  · obtain ⟨hkept, hcase⟩ := processDecode_frame w request locked
    exact ⟨hkept, .inl hcase⟩
  · exact ⟨rfl, .inl ⟨rfl, rfl⟩⟩

/-! ## The two workers over their runs -/

variable {s s' : System}

/-- What a worker keeps about the descriptors its calls have made. -/
structure Booked (s : System) : Prop where
  issued_of_mem : ∀ handle ∈ s.worker.nixl.descriptors, handle ∈ s.issued
  issued_of_handed : ∀ call c desc, s.calls.get? call = some c → c.phase.handed = some desc →
    desc.handle ∈ s.issued
  eq_of_get? : ∀ call c desc desc', s.calls.get? call = some c → c.phase.handed = some desc →
    s.worker.nixl.descriptors.get? desc.handle = some desc' → desc' = desc

-- A piece of a call that leaves the table alone and makes no descriptor of its own.
theorem Booked.set (h : Booked s) {call : Nat} {requestId : String}
    {outcome : DynamoWorker × CallPhase}
    (htable : outcome.1.nixl.descriptors = s.worker.nixl.descriptors)
    (hhanded : ∀ desc, outcome.2.handed = some desc →
      ∃ c, s.calls.get? call = some c ∧ c.phase.handed = some desc) :
    Booked (s.set call requestId outcome) := by
  have hold (k : Nat) (c : WorkerCall) (desc : KVCacheDescriptor)
      (hk : (s.set call requestId outcome).calls.get? k = some c)
      (hdesc : c.phase.handed = some desc) :
      ∃ k' c', s.calls.get? k' = some c' ∧ c'.phase.handed = some desc := by
    rcases Dict.get?_set_cases hk with ⟨-, rfl⟩ | ⟨-, hbefore⟩
    · obtain ⟨c', hc', hdesc'⟩ := hhanded desc hdesc
      exact ⟨call, c', hc', hdesc'⟩
    · exact ⟨k, c, hbefore, hdesc⟩
  refine ⟨?_, ?_, ?_⟩
  · intro handle hmem
    exact h.issued_of_mem handle (htable ▸ hmem)
  · intro k c desc hk hdesc
    obtain ⟨k', c', hk', hdesc'⟩ := hold k c desc hk hdesc
    exact h.issued_of_handed k' c' desc hk' hdesc'
  · intro k c desc desc' hk hdesc hget
    obtain ⟨k', c', hk', hdesc'⟩ := hold k c desc hk hdesc
    exact h.eq_of_get? k' c' desc desc' hk' hdesc' (htable ▸ hget)

-- A piece of a call that files a descriptor of its own, under a fresh handle.
theorem Booked.file (h : Booked s) {call : Nat} {requestId : String}
    {outcome : DynamoWorker × CallPhase} {desc : KVCacheDescriptor}
    (hfresh : desc.handle ∉ s.issued)
    (htable : outcome.1.nixl.descriptors = s.worker.nixl.descriptors.set desc.handle desc)
    (hhanded : outcome.2.handed = some desc) :
    Booked ({ s with issued := desc.handle :: s.issued }.set call requestId outcome) := by
  refine ⟨?_, ?_, ?_⟩
  · intro j hj
    change j ∈ outcome.1.nixl.descriptors at hj
    rw [htable, Dict.mem_set] at hj
    rcases hj with rfl | hold
    · exact List.mem_cons_self
    · exact List.mem_cons_of_mem _ (h.issued_of_mem j hold)
  · intro k c d hk hd
    rcases Dict.get?_set_cases hk with ⟨-, rfl⟩ | ⟨-, hbefore⟩
    · rw [hhanded, Option.some.injEq] at hd
      subst hd
      exact List.mem_cons_self
    · exact List.mem_cons_of_mem _ (h.issued_of_handed k c d hbefore hd)
  · intro k c d d' hk hd hget
    change outcome.1.nixl.descriptors.get? d.handle = some d' at hget
    rw [htable, Dict.get?_set] at hget
    rcases Dict.get?_set_cases hk with ⟨-, rfl⟩ | ⟨-, hbefore⟩
    · rw [hhanded, Option.some.injEq] at hd
      subst hd
      rw [if_pos rfl, Option.some.injEq] at hget
      exact hget.symm
    · -- the fresh handle is not that of any earlier descriptor
      have hne : d.handle ≠ desc.handle :=
        fun hsame ↦ hfresh (hsame ▸ h.issued_of_handed k c d hbefore hd)
      rw [if_neg hne] at hget
      exact h.eq_of_get? k c d d' hbefore hd hget

theorem Booked.begin (h : Booked s) {call : Nat} {request : ASRRequest} {objectId : Int}
    {handle : String} (hfresh : handle ∉ s.issued) :
    Booked ({ s with issued := handle :: s.issued }.set call request.requestId
      (s.worker.handleRequest request objectId handle s.locked)) := by
  obtain ⟨-, ⟨htable, hnone⟩ | ⟨-, desc, rfl, htable, hdesc⟩⟩ :=
    handleRequest_frame s.worker request objectId handle s.locked
  · have hmore : Booked { s with issued := handle :: s.issued } :=
      { issued_of_mem := fun j hj ↦ List.mem_cons_of_mem _ (h.issued_of_mem j hj)
        issued_of_handed := fun k c desc hk hdesc ↦
          List.mem_cons_of_mem _ (h.issued_of_handed k c desc hk hdesc)
        eq_of_get? := h.eq_of_get? }
    apply hmore.set htable
    intro desc hdesc
    rw [hnone] at hdesc
    cases hdesc
  · exact h.file hfresh htable hdesc

theorem Booked.step (h : Booked s) {event : Event} (hmoves : Moves s event s') : Booked s' := by
  cases hmoves with
  | begins hnew hfresh => exact h.begin hfresh
  | registers hc => exact h.set rfl fun desc hdesc ↦ ⟨_, hc, hdesc⟩
  | @acquires call requestId desc hc hpermit =>
    obtain ⟨-, htable, hnone⟩ := startTransfer_frame s.worker requestId desc
    exact h.set htable fun desc hdesc ↦ by rw [hnone] at hdesc; cases hdesc
  | transfers hc => exact h.set rfl fun desc hdesc ↦ by cases hdesc
  | @raises call requestId phase hc hprogress =>
    apply h.set
    · unfold releaseOnRaise
      split <;> rfl
    · intro desc hdesc
      cases hdesc
  | evicts handle =>
    refine ⟨?_, h.issued_of_handed, ?_⟩
    · intro j hj
      exact h.issued_of_mem j ((NixlTransferManager.mem_evict ..).mp hj).2
    · intro call c desc desc' hc hdesc hget
      change (s.worker.nixl.evict handle).descriptors.get? desc.handle = some desc' at hget
      rw [NixlTransferManager.get?_evict] at hget
      split at hget
      · cases hget
      · exact h.eq_of_get? call c desc desc' hc hdesc hget

/-- A decode worker with nothing in its table. -/
structure DecodeEmpty (s : System) : Prop where
  role_eq : s.worker.role = .decode
  get?_eq_none : ∀ handle, s.worker.nixl.descriptors.get? handle = none

theorem DecodeEmpty.of_frame (h : DecodeEmpty s) (hrole : s'.worker.role = s.worker.role)
    (htable : s'.worker.nixl.descriptors = s.worker.nixl.descriptors) : DecodeEmpty s' where
  role_eq := hrole.trans h.role_eq
  get?_eq_none := fun handle ↦ by rw [htable, h.get?_eq_none]

-- No event fills the table of a decode worker.
theorem DecodeEmpty.step (h : DecodeEmpty s) {event : Event} (hmoves : Moves s event s') :
    DecodeEmpty s' := by
  cases hmoves with
  | @begins call request objectId handle hnew hfresh =>
    obtain ⟨hrole, ⟨htable, -⟩ | ⟨hprefill, -⟩⟩ :=
      handleRequest_frame s.worker request objectId handle s.locked
    · exact h.of_frame hrole htable
    · rw [h.role_eq] at hprefill
      cases hprefill
  | registers hc => exact h.of_frame rfl rfl
  | @acquires call requestId desc hc hpermit =>
    obtain ⟨hrole, htable, -⟩ := startTransfer_frame s.worker requestId desc
    exact h.of_frame hrole htable
  | transfers hc => exact h.of_frame rfl rfl
  | @raises call requestId phase hc hprogress =>
    apply h.of_frame
    · show (releaseOnRaise s.worker phase).role = _
      unfold releaseOnRaise
      split <;> rfl
    · show (releaseOnRaise s.worker phase).nixl.descriptors = _
      unfold releaseOnRaise
      split <;> rfl
  | evicts handle =>
    refine ⟨h.role_eq, fun j ↦ ?_⟩
    show (s.worker.nixl.evict handle).descriptors.get? j = none
    rw [NixlTransferManager.get?_evict, h.get?_eq_none, ite_self]

/-! ## From one worker to the other -/

theorem processDecode_of_not_found {w : DynamoWorker} {request : ASRRequest} {handle : String}
    (hhandle : request.kvHandle = some handle) (hnone : w.nixl.descriptors.get? handle = none)
    (locked : Bool) :
    w.processDecode request locked =
      (w.enter, .raised (.keyError ("KV handle not found: " ++ handle))) := by
  have henter : w.enter.nixl.descriptors.get? handle = none := hnone
  simp only [DynamoWorker.processDecode, hhandle, henter]

theorem booked_run {config : WorkerConfig} {agent : Option Agent} {events : List Event}
    (hrun : runFrom step (.started .prefill config agent) events = some s) : Booked s := by
  apply run_invariant (fun _ _ _ h hstep ↦ h.step (step_moves hstep)) _ hrun
  refine ⟨?_, ?_, ?_⟩
  · intro handle hmem
    cases hmem
  · intro call c desc hc
    cases hc
  · intro call c desc desc' hc
    cases hc

theorem decodeEmpty_run {config : WorkerConfig} {agent : Option Agent} {events : List Event}
    (hrun : runFrom step (.started .decode config agent) events = some s) : DecodeEmpty s :=
  run_invariant (fun _ _ _ h hstep ↦ h.step (step_moves hstep)) ⟨rfl, fun _ ↦ rfl⟩ hrun

/-- Whatever the two workers have done before: a descriptor the prefill worker has returned and
still has in its table is under a handle that the decode worker rejects. -/
theorem handle_not_usable (pConfig dConfig : WorkerConfig) (pAgent dAgent : Option Agent)
    (pEvents dEvents : List Event) (p d : System)
    (hp : runFrom step (.started .prefill pConfig pAgent) pEvents = some p)
    (hd : runFrom step (.started .decode dConfig dAgent) dEvents = some d)
    (call : Nat) (requestId : String) (desc : KVCacheDescriptor)
    (hreturned : p.calls.get? call = some ⟨requestId, .returned (.descriptor desc)⟩)
    (hlive : desc.handle ∈ p.worker.nixl.descriptors) (request : ASRRequest) :
    p.worker.nixl.descriptors.get? desc.handle = some desc ∧
      (∀ objectId handle,
        d.worker.handleRequest (decodeRequest request desc.handle) objectId handle d.locked =
          (d.worker.enter, .raised (.keyError ("KV handle not found: " ++ desc.handle)))) ∧
      ¬ HandleUsable d request desc := by
  have hempty := decodeEmpty_run hd
  have hrejected (objectId : Int) (handle : String) :
      d.worker.handleRequest (decodeRequest request desc.handle) objectId handle d.locked =
        (d.worker.enter, .raised (.keyError ("KV handle not found: " ++ desc.handle))) := by
    rw [DynamoWorker.handleRequest, hempty.role_eq]
    exact processDecode_of_not_found rfl (hempty.get?_eq_none desc.handle) d.locked
  refine ⟨?_, hrejected, ?_⟩
  · obtain ⟨desc', hget⟩ := Dict.mem_iff_exists.mp hlive
    rw [hget, (booked_run hp).eq_of_get? call _ desc desc' hreturned rfl hget]
  · intro husable
    -- a raised call neither waits for a transfer nor has started one
    have hphase := congrArg Prod.snd ((hrejected 0 "").symm.trans (husable 0 ""))
    split at hphase
    · cases hphase
    · unfold DynamoWorker.startTransfer at hphase
      dsimp only at hphase
      split at hphase <;> cases hphase

-- One prefill in stub mode.
def handedOut : List Event := [.handleRequest 0 { requestId := "demo-001" } 0 "kv-0"]

-- The tensor of that prefill.
def handedOutDesc : KVCacheDescriptor :=
  (({ role := .prefill } : DynamoWorker).prefillTensor 0 500).descriptor "kv-0"

theorem handedOut_not_usable :
    ¬ HandleUsable (.started .decode {} (some {})) { requestId := "demo-001" } handedOutDesc :=
  (handle_not_usable {} {} none (some {}) handedOut [] _ _ rfl rfl 0 "demo-001" handedOutDesc rfl
    (by decide) { requestId := "demo-001" }).2.2

/-- A handle is given out and stays live; the decode worker fails on it. -/
theorem handed_out_and_rejected :
    ∃ p, runFrom step (.started .prefill {} none) handedOut = some p ∧
      p.calls.get? 0 = some ⟨"demo-001", .returned (.descriptor handedOutDesc)⟩ ∧
      handedOutDesc.handle ∈ p.worker.nixl.descriptors ∧
      ¬ HandleUsable (.started .decode {} none) { requestId := "demo-001" } handedOutDesc := by
  refine ⟨_, rfl, rfl, by decide, fun husable ↦ ?_⟩
  have hphase := congrArg Prod.snd (husable 0 "kv-1")
  exact absurd hphase (by decide)

end AsrServe.DynamoOrchestration.Worker
