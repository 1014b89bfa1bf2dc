import AsrServe.DynamoOrchestration.RegistryLog
import AsrServe.Reasoning.Runs

/-!
# Starting and stopping workers (`dynamo-orchestration/src/dynamo_worker.py`)

`DynamoWorker.start` and `stop` of several workers on one registry, cut where `start` waits for the
agent to initialise and `stop` for it to close (`nixl_rdma.py`).  Agents are numbered in the order
they are made.
-/

open AsrServe.Reasoning

namespace AsrServe.DynamoOrchestration.Lifecycle

/-- `role` is the one the constructor of `PrefillWorker` or `DecodeWorker` sets. -/
structure WorkerConfig where
  workerId : String
  role : RequestPhase
  listenAddress : String
  -- Whether the worker was given the registry.
  hasRegistry : Bool := true

def WorkerConfig.endpoint (config : WorkerConfig) : WorkerEndpoint where
  workerId := config.workerId
  role := config.role
  address := config.listenAddress

/-- A `start` or `stop` that waits in a worker thread. -/
inductive Pending where
  | initialising (agent : Nat)
  | closing (agent : Nat)
deriving DecidableEq, Repr

def Pending.agent : Pending → Nat
  | .initialising agent | .closing agent => agent

structure Worker where
  running : Bool := false
  agent : Option Nat := none
  pending : List Pending := []
deriving DecidableEq, Repr

variable {ι : Type} [DecidableEq ι]

structure Cluster (ι : Type) where
  workers : ι → Worker := fun _ ↦ {}
  registry : WorkerRegistry := {}
  -- Agents made, those whose `init` has returned and those whose `close` has.
  created : Nat := 0
  initialised : List Nat := []
  closed : List Nat := []

namespace Cluster

def set (c : Cluster ι) (i : ι) (w : Worker) : Cluster ι :=
  { c with workers := Function.update c.workers i w }

-- `start` behind `await self._nixl.start()`, the worker being `w` by then.
def startEnd (config : ι → WorkerConfig) (c : Cluster ι) (i : ι) (w : Worker) : Cluster ι :=
  { c.set i { w with running := true } with
    registry :=
      if (config i).hasRegistry then c.registry.register (config i).endpoint else c.registry }

/-- `start` up to its first suspension; without NIXL it has none. -/
def start (nixlAvailable : Bool) (config : ι → WorkerConfig) (c : Cluster ι) (i : ι) : Cluster ι :=
  let w := c.workers i
  if nixlAvailable then
    { c.set i
        { w with agent := some c.created, pending := w.pending ++ [.initialising c.created] } with
      created := c.created + 1 }
  else c.startEnd config i w

/-- `stop` up to its first suspension; without an agent it has none. -/
def stop (config : ι → WorkerConfig) (c : Cluster ι) (i : ι) : Cluster ι :=
  let w := { c.workers i with running := false }
  let c :=
    { c with
      registry :=
        if (config i).hasRegistry then c.registry.deregister (config i).workerId
        else c.registry }
  match w.agent with
  | none => c.set i w
  | some agent => c.set i { w with pending := w.pending ++ [.closing agent] }

end Cluster

inductive Event (ι : Type) where
  | start (i : ι)
  | stop (i : ι)
  -- What the `k`-th suspended call of the worker waits for has returned.
  | done (i : ι) (k : Nat)
  -- It has raised, or the call was cancelled.
  | raised (i : ι) (k : Nat)
  -- Reports about a worker.
  | updateLoad (workerId : String) (load : ℚ)
  | markUnhealthy (workerId : String)

def step (nixlAvailable : Bool) (config : ι → WorkerConfig) (c : Cluster ι) :
    Event ι → Option (Cluster ι)
  | .start i => some (c.start nixlAvailable config i)
  | .stop i => some (c.stop config i)
  | .done i k =>
    let w := { c.workers i with pending := (c.workers i).pending.eraseIdx k }
    match (c.workers i).pending[k]? with
    | some (.initialising agent) =>
      some ({ c with initialised := agent :: c.initialised }.startEnd config i w)
    | some (.closing agent) =>
      some ({ c with closed := agent :: c.closed }.set i { w with agent := none })
    | none => none
  | .raised i k =>
    match (c.workers i).pending[k]? with
    | some _ => some (c.set i { c.workers i with pending := (c.workers i).pending.eraseIdx k })
    | none => none
  | .updateLoad workerId load => some { c with registry := c.registry.updateLoad workerId load }
  | .markUnhealthy workerId => some { c with registry := c.registry.markUnhealthy workerId }

/-- `start` is called on a worker that is new or has been stopped, `stop` on one that is not
starting or stopping.  A worker whose `start` or `stop` has raised is stopped before it is started
again: it may still hold its agent. -/
def Orderly (c : Cluster ι) : Event ι → Prop
  | .start i => c.workers i = {}
  | .stop i => (c.workers i).pending = []
  | _ => True

instance (c : Cluster ι) : (event : Event ι) → Decidable (Orderly c event)
  | .start i => inferInstanceAs (Decidable (c.workers i = {}))
  | .stop i => inferInstanceAs (Decidable ((c.workers i).pending = []))
  | .done _ _ | .raised _ _ | .updateLoad _ _ | .markUnhealthy _ => .isTrue trivial

/-! ## The registry against the workers that run -/

/-- Registered is who runs, under its own id, role and address. -/
structure Enrolls (config : ι → WorkerConfig) (running : ι → Bool) (registry : WorkerRegistry) :
    Prop where
  entry : ∀ id w, registry.workers.get? id = some w → ∃ i, running i = true ∧
    (config i).hasRegistry = true ∧ (config i).workerId = id ∧ w.workerId = id ∧
    w.role = (config i).role ∧ w.address = (config i).listenAddress
  present : ∀ i, running i = true → (config i).hasRegistry = true →
    (config i).workerId ∈ registry.workers

section Enrolls

variable {config : ι → WorkerConfig} {running : ι → Bool} {registry : WorkerRegistry}

theorem Enrolls.starts (h : Enrolls config running registry) (i : ι) :
    Enrolls config (Function.update running i true)
      (if (config i).hasRegistry then registry.register (config i).endpoint else registry) := by
  have hkeep (j : ι) (hj : running j = true) : Function.update running i true j = true := by
    by_cases hji : j = i
    · rw [hji, Function.update_self]
    · rw [Function.update_of_ne hji, hj]
  have holder (j : ι) (hji : j ≠ i) (hj : Function.update running i true j = true) :
      running j = true := by rwa [Function.update_of_ne hji] at hj
  split
  · rename_i hregistry
    constructor
    · intro id w hget
      rcases Dict.get?_set_cases hget with ⟨rfl, rfl⟩ | ⟨hne, hget⟩
      · exact ⟨i, Function.update_self .., hregistry, rfl, rfl, rfl, rfl⟩
      · obtain ⟨j, hj, hrest⟩ := h.entry id w hget
        exact ⟨j, hkeep j hj, hrest⟩
    · intro j hj hjr
      rw [WorkerRegistry.register, Dict.mem_set]
      by_cases hji : j = i
      · exact .inl (by rw [hji]; rfl)
      · exact .inr (h.present j (holder j hji hj) hjr)
  · rename_i hregistry
    constructor
    · intro id w hget
      obtain ⟨j, hj, hrest⟩ := h.entry id w hget
      exact ⟨j, hkeep j hj, hrest⟩
    · intro j hj hjr
      have hji : j ≠ i := by
        rintro rfl
        exact hregistry hjr
      exact h.present j (holder j hji hj) hjr

theorem Enrolls.stops (hids : Function.Injective fun i ↦ (config i).workerId)
    (h : Enrolls config running registry) (i : ι) :
    Enrolls config (Function.update running i false)
      (if (config i).hasRegistry then registry.deregister (config i).workerId else registry) := by
  have holder (j : ι) (hj : Function.update running i false j = true) :
      j ≠ i ∧ running j = true := by
    by_cases hji : j = i
    · rw [hji, Function.update_self] at hj
      cases hj
    · rw [Function.update_of_ne hji] at hj
      exact ⟨hji, hj⟩
  split
  · constructor
    · intro id w hget
      rw [WorkerRegistry.deregister, Dict.get?_erase] at hget
      split at hget
      · cases hget
      · rename_i hid
        obtain ⟨j, hj, hjr, rfl, hrest⟩ := h.entry id w hget
        have hji : j ≠ i := by
          rintro rfl
          exact hid rfl
        exact ⟨j, by rw [Function.update_of_ne hji, hj], hjr, rfl, hrest⟩
    · intro j hj hjr
      obtain ⟨hji, hj⟩ := holder j hj
      have hid : (config j).workerId ≠ (config i).workerId := fun heq ↦ hji (hids heq)
      rw [Dict.mem_iff_get?_isSome, WorkerRegistry.deregister, Dict.get?_erase_of_ne _ hid,
        ← Dict.mem_iff_get?_isSome]
      exact h.present j hj hjr
  · rename_i hregistry
    constructor
    · intro id w hget
      obtain ⟨j, hj, hjr, hrest⟩ := h.entry id w hget
      have hji : j ≠ i := by
        rintro rfl
        exact hregistry hjr
      exact ⟨j, by rw [Function.update_of_ne hji, hj], hjr, hrest⟩
    · intro j hj hjr
      exact h.present j (holder j hj).2 hjr

omit [DecidableEq ι] in
-- What is reported about a worker leaves its id, role and address alone.
theorem Enrolls.modify (h : Enrolls config running registry) (workerId : String)
    {change : WorkerEndpoint → WorkerEndpoint}
    (hkeep : ∀ w, (change w).workerId = w.workerId ∧ (change w).role = w.role ∧
      (change w).address = w.address) :
    Enrolls config running (registry.modify workerId change) := by
  constructor
  · intro id w hget
    rw [WorkerRegistry.modify_workers, Dict.get?_change] at hget
    split at hget
    · rename_i hid
      subst hid
      obtain ⟨v, hv, rfl⟩ := Option.map_eq_some_iff.mp hget
      obtain ⟨hsame, hrole, haddress⟩ := hkeep v
      rw [hsame, hrole, haddress]
      exact h.entry id v hv
    · exact h.entry id w hget
  · intro i hi hir
    rw [Dict.mem_iff_get?_isSome, WorkerRegistry.modify_workers, Dict.get?_change]
    have hmem := Dict.mem_iff_get?_isSome.mp (h.present i hi hir)
    split
    · rename_i hid
      rw [Option.isSome_map, ← hid, hmem]
    · exact hmem

end Enrolls

/-! ## The agents against the workers that hold them -/

/-- Every agent made is closed or held by exactly one worker. -/
structure Owned (agent : ι → Option Nat) (created : Nat) (closed : List Nat) : Prop where
  live : ∀ i a, agent i = some a → a < created ∧ a ∉ closed
  distinct : ∀ i j a, agent i = some a → agent j = some a → i = j
  accounted : ∀ a < created, a ∈ closed ∨ ∃ i, agent i = some a

section Owned

variable {agent : ι → Option Nat} {created : Nat} {closed : List Nat}

theorem Owned.create (h : Owned agent created closed)
    (hclosed : ∀ a ∈ closed, a < created) {i : ι} (hnone : agent i = none) :
    Owned (Function.update agent i (some created)) (created + 1) closed := by
  have hcases (j : ι) (a : Nat) (hj : Function.update agent i (some created) j = some a) :
      j = i ∧ a = created ∨ j ≠ i ∧ agent j = some a := by
    by_cases hji : j = i
    · rw [hji, Function.update_self, Option.some.injEq] at hj
      exact .inl ⟨hji, hj.symm⟩
    · rw [Function.update_of_ne hji] at hj
      exact .inr ⟨hji, hj⟩
  constructor
  · intro j a hj
    rcases hcases j a hj with ⟨-, rfl⟩ | ⟨-, hj⟩
    · exact ⟨Nat.lt_succ_self _, fun hmem ↦ absurd (hclosed _ hmem) (lt_irrefl _)⟩
    · obtain ⟨hlt, hopen⟩ := h.live j a hj
      exact ⟨Nat.lt_succ_of_lt hlt, hopen⟩
  · intro j k a hj hk
    rcases hcases j a hj with ⟨hji, ha⟩ | ⟨-, hold⟩
    · rcases hcases k a hk with ⟨hki, -⟩ | ⟨-, hkold⟩
      · rw [hji, hki]
      · exact absurd (h.live k a hkold).1 (by rw [ha]; exact lt_irrefl _)
    · rcases hcases k a hk with ⟨-, ha⟩ | ⟨-, hkold⟩
      · exact absurd (h.live j a hold).1 (by rw [ha]; exact lt_irrefl _)
      · exact h.distinct j k a hold hkold
  · intro a ha
    rcases Nat.lt_succ_iff_lt_or_eq.mp ha with hlt | rfl
    · rcases h.accounted a hlt with hmem | ⟨j, hj⟩
      · exact .inl hmem
      · refine .inr ⟨j, ?_⟩
        have hji : j ≠ i := by
          rintro rfl
          rw [hnone] at hj
          cases hj
        rw [Function.update_of_ne hji, hj]
    · exact .inr ⟨i, Function.update_self ..⟩

theorem Owned.close (h : Owned agent created closed) {i : ι} {a : Nat} (ha : agent i = some a) :
    Owned (Function.update agent i none) created (a :: closed) := by
  have hcases (j : ι) (b : Nat) (hj : Function.update agent i none j = some b) :
      j ≠ i ∧ agent j = some b := by
    by_cases hji : j = i
    · rw [hji, Function.update_self] at hj
      cases hj
    · rw [Function.update_of_ne hji] at hj
      exact ⟨hji, hj⟩
  constructor
  · intro j b hj
    obtain ⟨hji, hj⟩ := hcases j b hj
    obtain ⟨hlt, hopen⟩ := h.live j b hj
    refine ⟨hlt, fun hmem ↦ ?_⟩
    rcases List.mem_cons.mp hmem with rfl | hmem
    · exact hji (h.distinct j i b hj ha)
    · exact hopen hmem
  · intro j k b hj hk
    exact h.distinct j k b (hcases j b hj).2 (hcases k b hk).2
  · intro b hb
    rcases h.accounted b hb with hmem | ⟨j, hj⟩
    · exact .inl (List.mem_cons_of_mem _ hmem)
    · by_cases hji : j = i
      · rw [hji, ha, Option.some.injEq] at hj
        exact .inl (by rw [hj]; exact List.mem_cons_self)
      · exact .inr ⟨j, by rw [Function.update_of_ne hji, hj]⟩

end Owned

/-! ## Orderly runs -/

/-- At most one call on the worker is suspended, and it works on the worker's agent. -/
inductive Stage (w : Worker) : Prop where
  | settled (hpending : w.pending = [])
  | starting (a : Nat) (hpending : w.pending = [.initialising a]) (hagent : w.agent = some a)
      (hrunning : w.running = false)
  | stopping (a : Nat) (hpending : w.pending = [.closing a]) (hagent : w.agent = some a)
      (hrunning : w.running = false)

/-- A worker that runs has its agent ready. -/
def Ready (nixlAvailable : Bool) (initialised : List Nat) (w : Worker) : Prop :=
  w.running = true → nixlAvailable = true → ∃ a ∈ initialised, w.agent = some a

structure Inv (nixlAvailable : Bool) (config : ι → WorkerConfig) (c : Cluster ι) : Prop where
  enrolls : Enrolls config (fun i ↦ (c.workers i).running) c.registry
  owned : Owned (fun i ↦ (c.workers i).agent) c.created c.closed
  closed_lt : ∀ a ∈ c.closed, a < c.created
  stage : ∀ i, Stage (c.workers i)
  ready : ∀ i, Ready nixlAvailable c.initialised (c.workers i)

variable {nixlAvailable : Bool} {config : ι → WorkerConfig} {c c' : Cluster ι}

omit [DecidableEq ι] in
theorem inv_new (nixlAvailable : Bool) (config : ι → WorkerConfig) :
    Inv nixlAvailable config ({} : Cluster ι) where
  enrolls := ⟨fun _ _ hget ↦ (by cases hget), fun _ hrunning ↦ (by cases hrunning)⟩
  owned := ⟨fun _ _ hagent ↦ (by cases hagent), fun _ _ _ hagent ↦ (by cases hagent),
    fun _ hlt ↦ absurd hlt (Nat.not_lt_zero _)⟩
  closed_lt := fun _ hmem ↦ absurd hmem List.not_mem_nil
  stage := fun _ ↦ .settled rfl
  ready := fun _ hrunning ↦ (by cases hrunning)

-- A field that keeps its value at `i` is the field it was.
theorem update_unchanged {α : Type} (f : ι → α) (i : ι) {a : α} (h : f i = a) :
    Function.update f i a = f := by
  rw [← h, Function.update_eq_self]

/-- One worker becomes `w`: what is said of each worker is to be shown of `w` alone. -/
theorem Inv.update (h : Inv nixlAvailable config c) (i : ι) {w : Worker}
    {registry : WorkerRegistry} {created : Nat} {initialised closed : List Nat}
    (henrolls : Enrolls config (Function.update (fun j ↦ (c.workers j).running) i w.running)
      registry)
    (howned : Owned (Function.update (fun j ↦ (c.workers j).agent) i w.agent) created closed)
    (hclosed : ∀ a ∈ closed, a < created) (hinitialised : c.initialised ⊆ initialised)
    (hstage : Stage w) (hready : Ready nixlAvailable initialised w) :
    Inv nixlAvailable config
      { workers := Function.update c.workers i w, registry, created, initialised, closed } := by
  have hrunning : (fun j ↦ (Function.update c.workers i w j).running) =
      Function.update (fun j ↦ (c.workers j).running) i w.running :=
    funext fun j ↦ Function.apply_update (fun _ ↦ Worker.running) c.workers i w j
  have hagent : (fun j ↦ (Function.update c.workers i w j).agent) =
      Function.update (fun j ↦ (c.workers j).agent) i w.agent :=
    funext fun j ↦ Function.apply_update (fun _ ↦ Worker.agent) c.workers i w j
  have hold (j : ι) : Ready nixlAvailable initialised (c.workers j) := by
    intro hrun hnixl
    obtain ⟨a, ha, hagent⟩ := h.ready j hrun hnixl
    exact ⟨a, hinitialised ha, hagent⟩
  have heach (j : ι) : Stage (Function.update c.workers i w j) ∧
      Ready nixlAvailable initialised (Function.update c.workers i w j) := by
    by_cases hji : j = i
    · rw [hji, Function.update_self]
      exact ⟨hstage, hready⟩
    · rw [Function.update_of_ne hji]
      exact ⟨h.stage j, hold j⟩
  exact
    { enrolls := by dsimp only; rw [hrunning]; exact henrolls
      owned := by dsimp only; rw [hagent]; exact howned
      closed_lt := hclosed
      stage := fun j ↦ (heach j).1
      ready := fun j ↦ (heach j).2 }

theorem ready_of_not_running {initialised : List Nat} {w : Worker} (h : w.running = false) :
    Ready nixlAvailable initialised w := by
  intro hrun
  rw [h] at hrun
  cases hrun

-- The suspended call of a worker is its only one.
theorem Stage.suspended {w : Worker} (h : Stage w) {k : Nat} {p : Pending}
    (hk : w.pending[k]? = some p) :
    w.pending.eraseIdx k = [] ∧ w.running = false ∧ w.agent = some p.agent := by
  cases h with
  | settled hpending =>
    rw [hpending] at hk
    cases hk
  | starting a hpending hagent hrunning =>
    rw [hpending] at hk ⊢
    cases k with
    | zero =>
      cases hk
      exact ⟨rfl, hrunning, hagent⟩
    | succ k => cases hk
  | stopping a hpending hagent hrunning =>
    rw [hpending] at hk ⊢
    cases k with
    | zero =>
      cases hk
      exact ⟨rfl, hrunning, hagent⟩
    | succ k => cases hk

theorem Inv.start (h : Inv nixlAvailable config c) {i : ι} (hnew : c.workers i = {}) :
    Inv nixlAvailable config (c.start nixlAvailable config i) := by
  have hrunning : (c.workers i).running = false := by rw [hnew]
  have hagent : (c.workers i).agent = none := by rw [hnew]
  have hpending : (c.workers i).pending = [] := by rw [hnew]
  rw [Cluster.start]
  dsimp only
  split
  · refine h.update i ?_ (h.owned.create h.closed_lt hagent)
      (fun a ha ↦ Nat.lt_succ_of_lt (h.closed_lt a ha)) (List.Subset.refl _)
      (.starting c.created (by rw [hpending]; rfl) rfl hrunning) (ready_of_not_running hrunning)
    rw [update_unchanged _ i rfl]
    exact h.enrolls
  · rename_i havailable
    refine h.update i (h.enrolls.starts i) ?_ h.closed_lt (List.Subset.refl _) (.settled hpending)
      (fun _ hnixl ↦ absurd hnixl havailable)
    rw [update_unchanged _ i rfl]
    exact h.owned

theorem Inv.stop (hids : Function.Injective fun i ↦ (config i).workerId)
    (h : Inv nixlAvailable config c) {i : ι} (hidle : (c.workers i).pending = []) :
    Inv nixlAvailable config (c.stop config i) := by
  rw [Cluster.stop]
  dsimp only
  split
  · rename_i hagent
    refine h.update i (h.enrolls.stops hids i) ?_ h.closed_lt (List.Subset.refl _) (.settled hidle)
      (ready_of_not_running rfl)
    rw [update_unchanged _ i rfl]
    exact h.owned
  · rename_i a hagent
    refine h.update i (h.enrolls.stops hids i) ?_ h.closed_lt (List.Subset.refl _)
      (.stopping a (by rw [hidle]; rfl) hagent rfl) (ready_of_not_running rfl)
    rw [update_unchanged _ i rfl]
    exact h.owned

theorem Inv.initialised (h : Inv nixlAvailable config c) {i : ι} {k a : Nat}
    (hk : (c.workers i).pending[k]? = some (.initialising a)) :
    Inv nixlAvailable config ({ c with initialised := a :: c.initialised }.startEnd config i
      { c.workers i with pending := (c.workers i).pending.eraseIdx k }) := by
  obtain ⟨hnone, -, hagent⟩ := (h.stage i).suspended hk
  refine h.update i (h.enrolls.starts i) ?_ h.closed_lt (List.subset_cons_self _ _)
    (.settled hnone) (fun _ _ ↦ ⟨a, List.mem_cons_self, hagent⟩)
  rw [update_unchanged _ i rfl]
  exact h.owned

theorem Inv.closed (h : Inv nixlAvailable config c) {i : ι} {k a : Nat}
    (hk : (c.workers i).pending[k]? = some (.closing a)) :
    Inv nixlAvailable config ({ c with closed := a :: c.closed }.set i
      { c.workers i with pending := (c.workers i).pending.eraseIdx k, agent := none }) := by
  obtain ⟨hnone, hrunning, hagent⟩ := (h.stage i).suspended hk
  refine h.update i ?_ (h.owned.close hagent) ?_ (List.Subset.refl _) (.settled hnone)
    (ready_of_not_running hrunning)
  · rw [update_unchanged _ i rfl]
    exact h.enrolls
  · intro b hb
    rcases List.mem_cons.mp hb with rfl | hb
    · exact (h.owned.live i _ hagent).1
    · exact h.closed_lt b hb

theorem Inv.raised (h : Inv nixlAvailable config c) {i : ι} {k : Nat} {p : Pending}
    (hk : (c.workers i).pending[k]? = some p) :
    Inv nixlAvailable config
      (c.set i { c.workers i with pending := (c.workers i).pending.eraseIdx k }) := by
  obtain ⟨hnone, -, -⟩ := (h.stage i).suspended hk
  refine h.update i ?_ ?_ h.closed_lt (List.Subset.refl _) (.settled hnone) (h.ready i)
  · rw [update_unchanged _ i rfl]
    exact h.enrolls
  · rw [update_unchanged _ i rfl]
    exact h.owned

theorem Inv.step (hids : Function.Injective fun i ↦ (config i).workerId)
    (h : Inv nixlAvailable config c) {event : Event ι} (horderly : Orderly c event)
    (hstep : step nixlAvailable config c event = some c') : Inv nixlAvailable config c' := by
  cases event with
  | start i =>
    cases hstep
    exact h.start horderly
  | stop i =>
    cases hstep
    exact h.stop hids horderly
  | done i k =>
    simp only [Lifecycle.step] at hstep
    split at hstep
    · rename_i hk
      cases hstep
      exact h.initialised hk
    · rename_i hk
      cases hstep
      exact h.closed hk
    · cases hstep
  | raised i k =>
    simp only [Lifecycle.step] at hstep
    split at hstep
    · rename_i hk
      cases hstep
      exact h.raised hk
    · cases hstep
  | updateLoad workerId load =>
    cases hstep
    exact { h with enrolls := h.enrolls.modify workerId fun _ ↦ ⟨rfl, rfl, rfl⟩ }
  | markUnhealthy workerId =>
    cases hstep
    exact { h with enrolls := h.enrolls.modify workerId fun _ ↦ ⟨rfl, rfl, rfl⟩ }

theorem inv_run (hids : Function.Injective fun i ↦ (config i).workerId) {events : List (Event ι)}
    (horderly : Along (step nixlAvailable config) (fun c event _ ↦ Orderly c event) {} events)
    (hrun : runFrom (step nixlAvailable config) {} events = some c) :
    Inv nixlAvailable config c :=
  run_invariant_along (fun _ _ _ h hevent hstep ↦ h.step hids hevent hstep)
    (inv_new nixlAvailable config) horderly hrun

/-- However the starts and stops of several workers interleave, as long as each worker is only
started when new or stopped and only stopped when not in the middle of either: the registry offers
for a role only workers of that role that run, under their own address, with an agent that has been
initialised and not closed. -/
theorem selected_worker_ready (nixlAvailable : Bool) (config : ι → WorkerConfig)
    (hids : Function.Injective fun i ↦ (config i).workerId) (events : List (Event ι))
    (c : Cluster ι)
    (horderly : Along (step nixlAvailable config) (fun c event _ ↦ Orderly c event) {} events)
    (hrun : runFrom (step nixlAvailable config) {} events = some c) (role : RequestPhase)
    (w : WorkerEndpoint) (hselected : c.registry.leastLoaded role = some w) :
    ∃ i, (config i).workerId = w.workerId ∧ (config i).role = role ∧
      (config i).listenAddress = w.address ∧ (c.workers i).running = true ∧
      (c.workers i).pending = [] ∧
      (nixlAvailable = true →
        ∃ a ∈ c.initialised, a ∉ c.closed ∧ (c.workers i).agent = some a) := by
  have h := inv_run hids horderly hrun
  have hspec := WorkerRegistry.leastLoaded_spec hselected
  obtain ⟨id, hget⟩ := Dict.mem_values_iff.mp hspec.registered
  obtain ⟨i, hrunning, -, hid, hw, hrole, haddress⟩ := h.enrolls.entry id w hget
  refine ⟨i, hid.trans hw.symm, hrole.symm.trans hspec.role_eq, haddress.symm, hrunning, ?_, ?_⟩
  · cases h.stage i with
    | settled hpending => exact hpending
    | starting a hpending hagent hstopped => rw [hrunning] at hstopped; cases hstopped
    | stopping a hpending hagent hstopped => rw [hrunning] at hstopped; cases hstopped
  · intro hnixl
    obtain ⟨a, ha, hagent⟩ := h.ready i hrunning hnixl
    exact ⟨a, ha, (h.owned.live i a hagent).2, hagent⟩

-- A prefill worker and a decode worker.
def twoWorkers : Bool → WorkerConfig
  | false =>
    { workerId := "prefill-0", role := .prefill, listenAddress := "10.0.1.10:50051" }
  | true => { workerId := "decode-0", role := .decode, listenAddress := "10.0.2.10:50051" }

theorem twoWorkers_ids : Function.Injective fun i ↦ (twoWorkers i).workerId := by
  intro i j hij
  cases i <;> cases j
  · rfl
  · exact absurd hij (by decide)
  · exact absurd hij (by decide)
  · rfl

-- The decode worker's agent is ready first; the prefill worker is stopped again.
def bothStarted : List (Event Bool) :=
  [.start false, .start true, .done true 0, .done false 0, .stop false, .done false 0]

theorem bothStarted_selected : ∃ c w, runFrom (step true twoWorkers) {} bothStarted = some c ∧
    c.registry.leastLoaded .decode = some w ∧ w.address = "10.0.2.10:50051" := by
  have horderly : Along (step true twoWorkers) (fun c event _ ↦ Orderly c event) {}
      bothStarted := by decide +kernel
  have hrun : (runFrom (step true twoWorkers) {} bothStarted).isSome := by decide +kernel
  obtain ⟨c, hrun⟩ := Option.isSome_iff_exists.mp hrun
  have hselected : ((runFrom (step true twoWorkers) {} bothStarted).bind fun c ↦
      c.registry.leastLoaded .decode).isSome := by decide +kernel
  rw [hrun, Option.bind_some] at hselected
  obtain ⟨w, hw⟩ := Option.isSome_iff_exists.mp hselected
  obtain ⟨i, -, hrole, haddress, -⟩ :=
    selected_worker_ready true twoWorkers twoWorkers_ids bothStarted c horderly hrun .decode w hw
  cases i with
  | false => cases hrole
  | true => exact ⟨c, w, hrun, hw, haddress.symm⟩

/-- In such runs no agent is lost: each is closed or held by exactly one worker, which closes it at
its next `stop` that does not raise; and who runs on the registry can be found there. -/
theorem agents_accounted (nixlAvailable : Bool) (config : ι → WorkerConfig)
    (hids : Function.Injective fun i ↦ (config i).workerId) (events : List (Event ι))
    (c : Cluster ι)
    (horderly : Along (step nixlAvailable config) (fun c event _ ↦ Orderly c event) {} events)
    (hrun : runFrom (step nixlAvailable config) {} events = some c) :
    (∀ a < c.created, a ∈ c.closed ↔ ∀ i, (c.workers i).agent ≠ some a) ∧
      (∀ i j a, (c.workers i).agent = some a → (c.workers j).agent = some a → i = j) ∧
      (∀ i, (config i).hasRegistry = true →
        ((config i).workerId ∈ c.registry.workers ↔ (c.workers i).running = true)) ∧
      ((∀ i, (c.workers i).agent = none) → ∀ a < c.created, a ∈ c.closed) := by
  have h := inv_run hids horderly hrun
  have hclosed : ∀ a < c.created, a ∈ c.closed ↔ ∀ i, (c.workers i).agent ≠ some a := by
    intro a ha
    constructor
    · intro hmem i hagent
      exact (h.owned.live i a hagent).2 hmem
    · intro hnone
      rcases h.owned.accounted a ha with hmem | ⟨i, hagent⟩
      · exact hmem
      · exact absurd hagent (hnone i)
  refine ⟨hclosed, h.owned.distinct, fun i hregistry ↦ ⟨fun hmem ↦ ?_, fun hrunning ↦ ?_⟩, ?_⟩
  · obtain ⟨w, hget⟩ := Dict.mem_iff_exists.mp hmem
    obtain ⟨j, hrunning, -, hid, -⟩ := h.enrolls.entry _ w hget
    rwa [← hids hid]
  · exact h.enrolls.present i hrunning hregistry
  · intro hnone a ha
    refine (hclosed a ha).mpr fun i hagent ↦ ?_
    rw [hnone i] at hagent
    cases hagent

theorem bothStarted_accounted : ∃ c, runFrom (step true twoWorkers) {} bothStarted = some c ∧
    ((twoWorkers true).workerId ∈ c.registry.workers ↔ (c.workers true).running = true) := by
  have horderly : Along (step true twoWorkers) (fun c event _ ↦ Orderly c event) {}
      bothStarted := by decide +kernel
  have hrun : (runFrom (step true twoWorkers) {} bothStarted).isSome := by decide +kernel
  obtain ⟨c, hrun⟩ := Option.isSome_iff_exists.mp hrun
  have h := agents_accounted true twoWorkers twoWorkers_ids bothStarted c horderly hrun
  exact ⟨c, hrun, h.2.2.1 true rfl⟩

end AsrServe.DynamoOrchestration.Lifecycle
