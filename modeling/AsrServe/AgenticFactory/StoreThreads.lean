import AsrServe.AgenticFactory.HintLog
import AsrServe.Reasoning.Monitor

/-!
# The hint store under goroutines (`agentic-factory/main.go`)

`HintsStore` with its `RWMutex`: every request to `/hints` runs in a goroutine of its own, next to
the one that broadcasts the active profile.  The clock is read inside the lock, so its readings are
part of what the lock protects.
-/

open AsrServe.Reasoning

namespace AsrServe.AgenticFactory.ControlPlane

/-- The store, and the clock `Update` reads. -/
structure Shared where
  store : HintsStore
  -- What `time.Now().UnixMilli()` returns the first time, the second time and so on.
  readings : Nat → Int64
  read : Nat := 0

/-- A goroutine's business with the store. -/
inductive StoreCall where
  | request (method : Method) (body : Option Json)
  -- One tick of `broadcastLoop`.
  | broadcast

inductive StoreResult where
  | response (response : Response)
  -- The profile whose JSON goes to the shim.
  | datagram (p : HintProfile)
deriving DecidableEq, Repr

namespace Threads

abbrev Code := Reasoning.Code Shared

def now : Code Int64 :=
  .access (fun shared ↦ { shared with read := shared.read + 1 })
    fun shared ↦ .ret (shared.readings shared.read)

def modifyStore (f : HintsStore → HintsStore) : Code Unit :=
  .modify fun shared ↦ { shared with store := f shared.store }

def update (p : HintProfile) : Code Unit := .locked .exclusive do
  let updatedAt ← now
  let active := (← .read).store.active
  modifyStore fun store ↦ { store with history := store.history ++ [active] }
  if (← .read).store.history.length > 100 then
    modifyStore fun store ↦ { store with history := store.history.tail }
  modifyStore fun store ↦ { store with active := { p with updatedAt } }

def active : Code HintProfile := .locked .shared do
  return (← .read).store.active

def call : StoreCall → Code StoreResult
  | .request .get _ => do
    return .response (.profile (← active))
  | .request .put body =>
    match body.bind decode with
    | none => return .response .invalidJson
    | some p => do
      update p
      return .response .noContent
  | .request (.other _) _ => return .response .methodNotAllowed
  | .broadcast => do
    return .datagram (← active)

/-! ## Each call under the lock -/

theorem update_critical (p : HintProfile) : (update p).Critical false .exclusive := by
  refine ⟨_, rfl, ?_⟩
  have hnow : now.Under false .exclusive 0 := ⟨fun h ↦ (by cases h), fun _ ↦ rfl⟩
  refine hnow.bind fun updatedAt ↦ Code.under_read.bind fun shared ↦ ?_
  refine (Code.under_modify _).bind fun _ ↦ Code.under_read.bind fun shared' ↦ ?_
  dsimp only
  split
  · exact (Code.under_modify _).bind fun _ ↦ Code.under_modify _
  · exact (Code.under_pure ()).bind fun _ ↦ Code.under_modify _

theorem active_critical : active.Critical false .shared :=
  ⟨_, rfl, Code.under_read.bind fun _ ↦ Code.under_pure _⟩

theorem call_guarded (c : StoreCall) : (call c).Guarded false := by
  cases c with
  | broadcast => exact active_critical.guarded.map _
  | request method body =>
    cases method with
    | get => exact active_critical.guarded.map _
    | put =>
      show (match body.bind decode with | none => _ | some p => _ : Code StoreResult).Guarded false
      cases body.bind decode with
      | none => exact .free _
      | some p => exact (update_critical p).guarded.map _
    | other name => exact .free _

theorem eval_update (p : HintProfile) (shared : Shared) :
    (update p).eval shared =
      ((), { shared with
        store := shared.store.update p (shared.readings shared.read)
        read := shared.read + 1 }) := by
  rw [update, Code.eval_locked, HintsStore.update]
  show (if (shared.store.history ++ [shared.store.active]).length > 100 then _ else _ :
    Code Unit).eval _ = _
  dsimp only
  split <;> rfl

end Threads

-- The profile a call puts in force.
def StoreCall.put : StoreCall → Option HintProfile
  | .request .put body => body.bind decode
  | _ => none

/-- What a call comes to when no other goroutine is around. -/
def answer : StoreCall → Shared → StoreResult × Shared
  | .broadcast, shared => (.datagram shared.store.active, shared)
  | .request method body, shared =>
    let (store, response) := shared.store.hints method body (shared.readings shared.read)
    let read := if (StoreCall.request method body).put.isSome then shared.read + 1 else shared.read
    (.response response, { shared with store, read })

theorem eval_call (c : StoreCall) (shared : Shared) :
    (Threads.call c).eval shared = answer c shared := by
  cases c with
  | broadcast => rfl
  | request method body =>
    cases method with
    | get => rfl
    | put =>
      cases hdecode : body.bind decode with
      | none =>
        simp only [answer, HintsStore.hints, StoreCall.put, Threads.call, hdecode]
        rfl
      | some p =>
        simp only [answer, HintsStore.hints, StoreCall.put, Threads.call, hdecode]
        refine (Code.eval_bind (Threads.update p) _ shared).trans ?_
        rw [Threads.eval_update]
        rfl
    | other name => rfl

/-- The store as a class whose lock is an `RWMutex`. -/
def storeMonitor : Monitor StoreCall Shared StoreResult where
  reentrant := false
  method := Threads.call
  spec := answer
  guarded := Threads.call_guarded
  eval_eq := eval_call

/-! ## Whole runs -/

-- The profiles the calls of an order put in force.
def putsOf (order : List (Nat × StoreCall)) : List HintProfile :=
  order.filterMap fun entry ↦ entry.2.put

/-- The store after the profiles of a list, each with the next reading of the clock. -/
def stored (readings : Nat → Int64) (ps : List HintProfile) : HintsStore :=
  HintsStore.written (ps.zipIdx.map fun (p, i) ↦ (p, readings i))

theorem stored_concat (readings : Nat → Int64) (ps : List HintProfile) (p : HintProfile) :
    stored readings (ps ++ [p]) = (stored readings ps).update p (readings ps.length) := by
  rw [stored, List.zipIdx_append, List.map_append, HintsStore.written, List.foldl_append]
  simp only [Nat.zero_add, List.zipIdx_singleton, List.map_cons, List.map_nil, List.foldl_cons,
    List.foldl_nil]
  rfl

theorem replay_eq_stored (readings : Nat → Int64) (order : List (Nat × StoreCall)) :
    storeMonitor.replay { store := newHintsStore, readings } order =
      { store := stored readings (putsOf order), readings, read := (putsOf order).length } := by
  induction order using List.reverseRecOn with
  | nil => rfl
  | append_singleton order entry ih =>
    obtain ⟨id, c⟩ := entry
    have hputs : putsOf (order ++ [(id, c)]) = putsOf order ++ c.put.toList := by
      rw [putsOf, List.filterMap_append, ← putsOf]
      cases hput : c.put <;> simp [hput]
    rw [Monitor.replay_concat, ih, hputs]
    show (answer c _).2 = _
    cases c with
    | broadcast => simp [answer, StoreCall.put]
    | request method body =>
      cases method with
      | put =>
        cases hdecode : body.bind decode with
        | none => simp [answer, HintsStore.hints, StoreCall.put, hdecode]
        | some p => simp [answer, HintsStore.hints, StoreCall.put, hdecode, stored_concat]
      | get | other => simp [answer, HintsStore.hints, StoreCall.put]

/-- Any number of goroutines serve requests and broadcast.  Some order of the calls, one that never
puts a call before another that had returned when it was made, explains everything: each call that
is through has answered from the store with the profiles that were put before it, the clock read
once for each of them in that order, and unless an update is at work the store is the one with all
of them.  No goroutine is left waiting for the lock. -/
theorem store_linearizable {readings : Nat → Int64} {events : List (Monitor.Event StoreCall)}
    {s : Monitor.Config StoreCall Shared StoreResult}
    (hrun : runFrom storeMonitor.step { object := { store := newHintsStore, readings } } events =
      some s) :
    (∃ order, storeMonitor.Linearizes { store := newHintsStore, readings } events s order ∧
      (∀ id c result, s.calls.get? id = some c → c.code = .ret result →
        ∃ before rest, order = before ++ (id, c.op) :: rest ∧
          match c.op with
          | .broadcast => result = .datagram (stored readings (putsOf before)).active
          | .request method body => ∀ now,
            result = .response ((stored readings (putsOf before)).hints method body now).2) ∧
      ((∀ id c, s.calls.get? id = some c → .exclusive ∉ c.held) →
        s.object.store = stored readings (putsOf order))) ∧
      storeMonitor.NeverStuck s := by
  refine ⟨?_, Monitor.neverStuck hrun⟩
  obtain ⟨order, horder⟩ := Monitor.linearizable hrun
  refine ⟨order, horder, ?_, ?_⟩
  · intro id c result hc hcode
    obtain ⟨before, rest, hsplit, hresult⟩ := horder.result id c result hc hcode
    rw [replay_eq_stored] at hresult
    refine ⟨before, rest, hsplit, ?_⟩
    rw [hresult]
    cases c.op with
    | broadcast => rfl
    | request method body =>
      intro now
      cases method with
      | put =>
        cases hdecode : body.bind decode <;>
          simp [storeMonitor, answer, HintsStore.hints, hdecode]
      | get | other => rfl
  · intro hfree
    rw [horder.object hfree, replay_eq_stored]

/-! ## Timestamps -/

-- The profile a call has read.
def StoreResult.profile? : StoreResult → Option HintProfile
  | .datagram p => some p
  | .response (.profile p) => some p
  | _ => none

theorem updatedAt_stored (readings : Nat → Int64) (ps : List HintProfile) :
    (stored readings ps).active.updatedAt = if ps = [] then 0 else readings (ps.length - 1) := by
  rcases List.eq_nil_or_concat' ps with rfl | ⟨ps, p, rfl⟩
  · rfl
  · rw [stored_concat, if_neg (by simp), List.length_append]
    rfl

-- A call reads the active profile and nothing else.
theorem profile?_answer {c : StoreCall} {shared : Shared} {p : HintProfile}
    (h : (answer c shared).1.profile? = some p) : p = shared.store.active := by
  cases c with
  | broadcast => exact (Option.some.inj h).symm
  | request method body =>
    cases method with
    | get => exact (Option.some.inj h).symm
    | put =>
      cases hdecode : body.bind decode <;>
        simp [answer, HintsStore.hints, hdecode, StoreResult.profile?] at h
    | other name => cases h

theorem Linearizes.profile?_eq {readings : Nat → Int64} {events : List (Monitor.Event StoreCall)}
    {s : Monitor.Config StoreCall Shared StoreResult} {order : List (Nat × StoreCall)}
    (horder : storeMonitor.Linearizes { store := newHintsStore, readings } events s order)
    {id : Nat} {c : Monitor.Call StoreCall Shared StoreResult} {result : StoreResult}
    (hc : s.calls.get? id = some c) (hcode : c.code = .ret result) {p : HintProfile}
    (hp : result.profile? = some p) :
    ∃ before rest, order = before ++ (id, c.op) :: rest ∧
      p = (stored readings (putsOf before)).active := by
  obtain ⟨before, rest, hsplit, rfl⟩ := horder.result id c result hc hcode
  refine ⟨before, rest, hsplit, ?_⟩
  rw [profile?_answer hp, replay_eq_stored]

/-- If the clock never goes back, no client sees a profile that is older than one it has seen
before: of two reads, requests or broadcasts, one after the other, the second has the later
timestamp. -/
theorem reads_monotone {readings : Nat → Int64} (hclock : ∀ i j, i ≤ j → readings i ≤ readings j)
    (hepoch : 0 ≤ readings 0) {events : List (Monitor.Event StoreCall)}
    {s : Monitor.Config StoreCall Shared StoreResult}
    (hrun : runFrom storeMonitor.step { object := { store := newHintsStore, readings } } events =
      some s) {earlier later : Nat} (hbefore : Monitor.Before events earlier later)
    {c c' : Monitor.Call StoreCall Shared StoreResult} {result result' : StoreResult}
    (hc : s.calls.get? earlier = some c) (hcode : c.code = .ret result)
    (hc' : s.calls.get? later = some c') (hcode' : c'.code = .ret result')
    {p p' : HintProfile} (hp : result.profile? = some p) (hp' : result'.profile? = some p') :
    p.updatedAt ≤ p'.updatedAt := by
  obtain ⟨order, horder⟩ := Monitor.linearizable hrun
  obtain ⟨before, rest, hsplit, rfl⟩ := Linearizes.profile?_eq horder hc hcode hp
  obtain ⟨before', rest', hsplit', rfl⟩ := Linearizes.profile?_eq horder hc' hcode' hp'
  obtain ⟨between, rfl⟩ := horder.split_before hbefore hsplit hsplit'
  -- the later read has all the puts of the earlier one behind it
  have hputs : putsOf (before ++ (earlier, c.op) :: between) =
      putsOf before ++ putsOf ((earlier, c.op) :: between) := List.filterMap_append
  rw [hputs, updatedAt_stored, updatedAt_stored]
  by_cases hnone : putsOf before = []
  · rw [if_pos hnone]
    split
    · exact Int64.le_refl 0
    · exact Int64.le_trans hepoch (hclock 0 _ (Nat.zero_le _))
  · rw [if_neg hnone, if_neg (fun h ↦ hnone (List.append_eq_nil_iff.mp h).1)]
    refine hclock _ _ ?_
    rw [List.length_append]
    omega

-- One client reads, another one puts a profile and reads it back.
def putAndGet : List (Monitor.Event StoreCall) :=
  [.invoke 0 (.request .get none), .invoke 1 (.request .put (some (.object []))), .advance 0] ++
    [.advance 0, .advance 0, .returns 0] ++ List.replicate 7 (.advance 1) ++
    [.returns 1, .invoke 2 (.request .get none), .advance 2, .advance 2, .advance 2, .returns 2]

theorem putAndGet_linearizable :
    ∃ s, runFrom storeMonitor.step
        { object := { store := newHintsStore, readings := fun _ ↦ 1700000000000 } } putAndGet =
          some s ∧
      ∃ order, storeMonitor.Linearizes
        { store := newHintsStore, readings := fun _ ↦ 1700000000000 } putAndGet s order := by
  have hrun : ∃ s, runFrom storeMonitor.step
      { object := { store := newHintsStore, readings := fun _ ↦ 1700000000000 } } putAndGet =
        some s := ⟨_, rfl⟩
  obtain ⟨s, hrun⟩ := hrun
  obtain ⟨⟨order, horder, -⟩, -⟩ := store_linearizable hrun
  exact ⟨s, hrun, order, horder⟩

theorem putAndGet_monotone :
    ∃ s c c' p p', runFrom storeMonitor.step
        { object := { store := newHintsStore, readings := fun _ ↦ 1700000000000 } } putAndGet =
          some s ∧
      s.calls.get? 0 = some c ∧ c.code = .ret (.response (.profile p)) ∧
      s.calls.get? 2 = some c' ∧ c'.code = .ret (.response (.profile p')) ∧
      p.updatedAt ≤ p'.updatedAt := by
  have hbefore : Monitor.Before putAndGet 0 2 :=
    ⟨putAndGet.take 14, _, [.advance 2, .advance 2, .advance 2, .returns 2], rfl,
      by simp [putAndGet]⟩
  exact ⟨_, _, _, _, _, rfl, rfl, rfl, rfl, rfl,
    @reads_monotone (fun _ ↦ 1700000000000) (fun _ _ _ ↦ Int64.le_refl _) (by decide) putAndGet _
      rfl 0 2 hbefore _ _ _ _ rfl rfl rfl rfl _ _ rfl rfl⟩

end AsrServe.AgenticFactory.ControlPlane
