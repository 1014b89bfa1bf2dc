import AsrServe.AgenticFactory.EvictionScheduler
import AsrServe.Reasoning.Monitor

/-!
# The TTL scheduler under threads (`TTLEvictionScheduler` in `agentic-factory/src/agent_hints.py`)

`register` and `tick` from any number of threads.  Each of them reads the clock before it acquires
the `RLock`, so the reading belongs to the call and may be old by the time the lock is there.
-/

open AsrServe.Reasoning

namespace AsrServe.AgenticFactory.TTLEvictionScheduler

variable {φ : Type}

/-- What a call returns, with the callbacks it has invoked. -/
inductive CallResult (φ : Type) where
  | registered
  | ticked (invoked : List (String × φ)) (evicted : List String)
  -- `pop` has not found its handle.
  | keyError

namespace Threads

-- The loop of `tick` over the handles that have expired.
def evictAll (raises : String → Bool) (invoked : List (String × φ)) (evicted : List String) :
    List String → Code (TTLEvictionScheduler φ) (CallResult φ)
  | [] => .ret (.ticked invoked evicted)
  | handle :: rest =>
    .access (fun s ↦ { entries := s.entries.erase handle }) fun s ↦
      match s.entries.get? handle with
      | none => .ret .keyError
      | some (_, evictFn) =>
        evictAll raises (invoked ++ [(handle, evictFn)])
          (if raises handle then evicted else evicted ++ [handle]) rest

def call : Call φ → Code (TTLEvictionScheduler φ) (CallResult φ)
  | .register now handle ttlMs evictFn => .locked .exclusive do
    .modify fun s ↦ s.register now handle ttlMs evictFn
    return .registered
  | .tick now raises => .locked .exclusive do
    evictAll raises [] [] ((← .read).expired now)

theorem evictAll_under (raises : String → Bool) (invoked : List (String × φ))
    (evicted handles : List String) :
    (evictAll raises invoked evicted handles).Under true .exclusive 0 := by
  induction handles generalizing invoked evicted with
  | nil => rfl
  | cons handle rest ih =>
    refine ⟨fun h ↦ (by cases h), fun s ↦ ?_⟩
    dsimp only
    split
    · exact rfl
    · exact ih _ _

theorem call_critical (c : Call φ) : (call c).Critical true .exclusive := by
  cases c with
  | register => exact ⟨_, rfl, (Code.under_modify _).bind fun _ ↦ Code.under_pure _⟩
  | tick now raises =>
    exact ⟨_, rfl, Code.under_read.bind fun s ↦ evictAll_under raises [] [] (s.expired now)⟩

-- Alone, the loop is the one of the sequential `tick`.
theorem eval_evictAll {raises : String → Bool} {t r : Tick φ} {handles : List String}
    (h : handles.foldlM (evictOne raises) t = some r) :
    (evictAll raises t.invoked t.evicted handles).eval t.scheduler =
      (.ticked r.invoked r.evicted, r.scheduler) := by
  induction handles generalizing t with
  | nil =>
    cases h
    rfl
  | cons handle rest ih =>
    rw [List.foldlM_cons, evictOne] at h
    cases hget : t.scheduler.entries.get? handle with
    | none =>
      rw [hget] at h
      cases h
    | some entry =>
      rw [hget] at h
      simp only [evictAll, Code.eval, hget]
      exact ih h

end Threads

/-- What a call comes to when no other thread is around. -/
def answer : Call φ → TTLEvictionScheduler φ → CallResult φ × TTLEvictionScheduler φ
  | .register now handle ttlMs evictFn, s => (.registered, s.register now handle ttlMs evictFn)
  | .tick now raises, s =>
    match s.tick now raises with
    | some r => (.ticked r.invoked r.evicted, r.scheduler)
    | none => (.keyError, s)

theorem eval_call (c : Call φ) (s : TTLEvictionScheduler φ) :
    (Threads.call c).eval s = answer c s := by
  cases c with
  | register => rfl
  | tick now raises =>
    obtain ⟨r, hr, -⟩ := tick_spec s now raises
    rw [answer, hr, Threads.call, Code.eval_locked]
    exact Threads.eval_evictAll hr

/-- The scheduler as a class whose lock is an `RLock`. -/
def monitor : Monitor (Call φ) (TTLEvictionScheduler φ) (CallResult φ) where
  reentrant := true
  method := Threads.call
  spec := answer
  guarded := fun c ↦ (Threads.call_critical c).guarded
  eval_eq := eval_call

/-! ## Whole runs -/

-- The calls of an order, one after the other.
def callsOf (order : List (Nat × Call φ)) : List (Call φ) := order.map Prod.snd

end AsrServe.AgenticFactory.TTLEvictionScheduler
