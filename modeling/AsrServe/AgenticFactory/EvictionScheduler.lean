import AsrServe.Reasoning.Dict
import AsrServe.Reasoning.Runs
import Mathlib.Algebra.Order.Field.Rat

/-!
# The TTL eviction scheduler (`TTLEvictionScheduler` in `agentic-factory/src/agent_hints.py`)

Handles with a deadline and a callback each.  The callbacks are values of a type `φ` the scheduler
does nothing with but call them; what a call did is a parameter of the tick that makes it.  Times
are seconds on the monotonic clock.
-/

open AsrServe.Reasoning

namespace AsrServe.AgenticFactory

structure TTLEvictionScheduler (φ : Type) where
  -- handle → (deadline, evict_fn)
  entries : Dict String (ℚ × φ) := Dict.empty

namespace TTLEvictionScheduler

variable {φ : Type}

def register (s : TTLEvictionScheduler φ) (now : ℚ) (handle : String) (ttlMs : Int)
    (evictFn : φ) : TTLEvictionScheduler φ where
  entries := s.entries.set handle (now + ttlMs / 1000, evictFn)

/-- A `tick` on its way through the expired handles. -/
structure Tick (φ : Type) where
  scheduler : TTLEvictionScheduler φ
  -- The callbacks invoked so far, with the handle each was given.
  invoked : List (String × φ) := []
  evicted : List String := []

/-- The body of the loop; `none` is the `KeyError` of `pop`. -/
def evictOne (raises : String → Bool) (t : Tick φ) (handle : String) : Option (Tick φ) :=
  match t.scheduler.entries.get? handle with
  | none => none
  | some (_, evictFn) =>
    some
      { scheduler := { entries := t.scheduler.entries.erase handle }
        invoked := t.invoked ++ [(handle, evictFn)]
        evicted := if raises handle then t.evicted else t.evicted ++ [handle] }

def expired (s : TTLEvictionScheduler φ) (now : ℚ) : List String :=
  (s.entries.entries.filter fun (_, dl, _) ↦ decide (dl ≤ now)).map Prod.fst

/-- `tick` at `now`; `raises handle` says whether the callback of `handle` raises this time. -/
def tick (s : TTLEvictionScheduler φ) (now : ℚ) (raises : String → Bool) : Option (Tick φ) :=
  (s.expired now).foldlM (evictOne raises) { scheduler := s }

inductive Call (φ : Type) where
  | register (now : ℚ) (handle : String) (ttlMs : Int) (evictFn : φ)
  | tick (now : ℚ) (raises : String → Bool)

def step (s : TTLEvictionScheduler φ) : Call φ → Option (TTLEvictionScheduler φ)
  | .register now handle ttlMs evictFn => some (s.register now handle ttlMs evictFn)
  | .tick now raises => (s.tick now raises).map Tick.scheduler

/-! ## One tick -/

variable {s s' : TTLEvictionScheduler φ}

-- The loop over the keys of entries that are all in the table.
theorem foldlM_evictOne (raises : String → Bool) (t : Tick φ) {es : List (String × ℚ × φ)}
    (hmem : ∀ e ∈ es, e ∈ t.scheduler.entries.entries) (hnd : (es.map Prod.fst).Nodup) :
    ∃ r, (es.map Prod.fst).foldlM (evictOne raises) t = some r ∧
      r.invoked = t.invoked ++ es.map (fun e ↦ (e.1, e.2.2)) ∧
      r.evicted = t.evicted ++ (es.map Prod.fst).filter (!raises ·) ∧
      r.scheduler.entries.entries =
        t.scheduler.entries.entries.filter (fun e ↦ e.1 ∉ es.map Prod.fst) := by
  induction es generalizing t with
  | nil => exact ⟨t, rfl, by simp, by simp, by simp⟩
  | cons e es ih =>
    obtain ⟨handle, deadline, evictFn⟩ := e
    rw [List.map_cons, List.nodup_cons] at hnd
    have hget : t.scheduler.entries.get? handle = some (deadline, evictFn) :=
      Dict.mem_entries_iff.mp (hmem _ List.mem_cons_self)
    -- popping one handle leaves the entries of the others where they are
    have hrest : ∀ e ∈ es, e ∈ (t.scheduler.entries.erase handle).entries := by
      intro e he
      refine List.mem_filter.mpr ⟨hmem e (List.mem_cons_of_mem _ he), decide_eq_true ?_⟩
      exact fun hkey ↦ hnd.1 (hkey ▸ List.mem_map.mpr ⟨e, he, rfl⟩)
    obtain ⟨r, hrun, hinvoked, hevicted, hleft⟩ := ih
      { scheduler := { entries := t.scheduler.entries.erase handle }
        invoked := t.invoked ++ [(handle, evictFn)]
        evicted := if raises handle then t.evicted else t.evicted ++ [handle] } hrest hnd.2
    refine ⟨r, ?_, ?_, ?_, ?_⟩
    · rw [List.map_cons, List.foldlM_cons, evictOne, hget]
      exact hrun
    · rw [hinvoked, List.append_assoc, List.map_cons, List.singleton_append]
    · rw [hevicted, List.map_cons, List.filter_cons]
      cases raises handle <;> simp
    · rw [hleft, Dict.erase, List.filter_filter]
      refine List.filter_congr fun e _ ↦ ?_
      simp only [List.map_cons, List.mem_cons, not_or, Bool.decide_and, Bool.and_comm]

/-- What a tick does: it pops exactly the entries whose deadline has come, in table order. -/
theorem tick_spec (s : TTLEvictionScheduler φ) (now : ℚ) (raises : String → Bool) :
    ∃ r, s.tick now raises = some r ∧
      r.invoked = (s.entries.entries.filter fun e ↦ decide (e.2.1 ≤ now)).map
        (fun e ↦ (e.1, e.2.2)) ∧
      r.evicted = (s.expired now).filter (!raises ·) ∧
      r.scheduler.entries.entries = s.entries.entries.filter fun e ↦ decide (now < e.2.1) := by
  obtain ⟨r, hrun, hinvoked, hevicted, hleft⟩ := foldlM_evictOne raises { scheduler := s }
    (fun e (he : e ∈ s.entries.entries.filter fun e ↦ decide (e.2.1 ≤ now)) ↦
      (List.mem_filter.mp he).1)
    (s.entries.nodup.sublist (List.filter_sublist.map _))
  refine ⟨r, hrun, hinvoked, hevicted, ?_⟩
  rw [hleft, Dict.filter_key_not_mem]
  simp only [← decide_not, not_le]

/-! ## Registrations over a history of calls -/

-- `deadline` has come by the end of the call, or `handle` has been registered anew.
def Call.Ends (handle : String) (deadline : ℚ) : Call φ → Prop
  | .register _ j _ _ => j = handle
  | .tick now _ => deadline ≤ now

-- Call `i` registers `evictFn` for `handle`.
def Registers (calls : List (Call φ)) (i : Nat) (handle : String) (deadline : ℚ) (evictFn : φ) :
    Prop :=
  ∃ now ttlMs, calls[i]? = some (.register now handle ttlMs evictFn) ∧
    deadline = now + ttlMs / 1000

/-- Call `i` is a registration that no later call has replaced or consumed. -/
def Pending (calls : List (Call φ)) (i : Nat) (handle : String) (deadline : ℚ) (evictFn : φ) :
    Prop :=
  Registers calls i handle deadline evictFn ∧
  ∀ call ∈ calls.drop (i + 1), ¬ call.Ends handle deadline

/-- The tick that is call `j` invokes the callback that call `i` registered. -/
def Fires (calls : List (Call φ)) (i j : Nat) : Prop :=
  ∃ now raises s r handle deadline evictFn, calls[j]? = some (.tick now raises) ∧
    runFrom step {} (calls.take j) = some s ∧ s.tick now raises = some r ∧
    Pending (calls.take j) i handle deadline evictFn ∧ (handle, evictFn) ∈ r.invoked

/-- What the tick at `now` after `calls` has to do, `s` being the state it finds. -/
structure TickExact (calls : List (Call φ)) (s : TTLEvictionScheduler φ) (now : ℚ)
    (raises : String → Bool) (r : Tick φ) : Prop where
  -- In table order.
  invoked_eq : r.invoked =
    (s.entries.entries.filter fun e ↦ decide (e.2.1 ≤ now)).map fun e ↦ (e.1, e.2.2)
  once : (r.invoked.map Prod.fst).Nodup
  mem_invoked_iff : ∀ handle evictFn, (handle, evictFn) ∈ r.invoked ↔
    ∃ i deadline, Pending calls i handle deadline evictFn ∧ deadline ≤ now
  evicted_eq : r.evicted = (r.invoked.map Prod.fst).filter (!raises ·)
  left_eq : r.scheduler.entries.entries =
    s.entries.entries.filter fun e ↦ decide (now < e.2.1)

variable {calls : List (Call φ)} {i j : Nat} {handle handle' : String} {deadline deadline' : ℚ}
  {evictFn evictFn' : φ}

theorem Registers.unique (h : Registers calls i handle deadline evictFn)
    (h' : Registers calls i handle' deadline' evictFn') :
    handle = handle' ∧ deadline = deadline' ∧ evictFn = evictFn' := by
  obtain ⟨now, ttlMs, hcall, rfl⟩ := h
  obtain ⟨now', ttlMs', hcall', rfl⟩ := h'
  rw [hcall] at hcall'
  cases hcall'
  exact ⟨rfl, rfl, rfl⟩

theorem Registers.of_take (h : Registers (calls.take j) i handle deadline evictFn) :
    i < j ∧ Registers calls i handle deadline evictFn := by
  obtain ⟨now, ttlMs, hcall, hdl⟩ := h
  have hij : i < j := by
    have hlt := (List.getElem?_eq_some_iff.mp hcall).1
    rw [List.length_take] at hlt
    omega
  rw [List.getElem?_take_of_lt hij] at hcall
  exact ⟨hij, now, ttlMs, hcall, hdl⟩

theorem mem_drop_of_getElem? {k : Nat} {call : Call φ} (hik : i < k) (hk : calls[k]? = some call) :
    call ∈ calls.drop (i + 1) := by
  apply List.mem_of_getElem? (i := k - (i + 1))
  rw [List.getElem?_drop, Nat.add_sub_cancel' hik]
  exact hk

theorem Pending.lt_length (h : Pending calls i handle deadline evictFn) : i < calls.length := by
  obtain ⟨⟨now, ttlMs, hcall, -⟩, -⟩ := h
  exact (List.getElem?_eq_some_iff.mp hcall).1

-- One more call: what was pending and is not ended by it, and what it registers.
theorem pending_concat {call : Call φ} :
    Pending (calls ++ [call]) i handle deadline evictFn ↔
      (Pending calls i handle deadline evictFn ∧ ¬ call.Ends handle deadline) ∨
      (i = calls.length ∧ ∃ now ttlMs, call = .register now handle ttlMs evictFn ∧
        deadline = now + ttlMs / 1000) := by
  by_cases hi : i < calls.length
  · have hne : i ≠ calls.length := by omega
    rw [Pending, Registers, List.getElem?_append_left hi, List.drop_append_of_le_length (by omega),
      List.forall_mem_append, List.forall_mem_singleton, ← and_assoc]
    simp only [hne, false_and, or_false]
    rfl
  · have hold : ¬ Pending calls i handle deadline evictFn := fun h ↦ hi h.lt_length
    simp only [hold, false_and, false_or]
    by_cases hlast : i = calls.length
    · subst hlast
      simp [Pending, Registers]
    · have hout : (calls ++ [call])[i]? = none := by
        rw [List.getElem?_eq_none_iff, List.length_append, List.length_singleton]
        omega
      simp [Pending, Registers, hout, hlast]

-- No registration of the handle comes after a pending one.
theorem Pending.not_registers (h : Pending calls i handle deadline evictFn) {k : Nat}
    (hik : i < k) : ¬ Registers calls k handle deadline' evictFn' := by
  rintro ⟨now, ttlMs, hk, -⟩
  exact h.2 _ (mem_drop_of_getElem? hik hk) rfl

-- A handle has one pending registration at most.
theorem Pending.unique {k : Nat} (h : Pending calls i handle deadline evictFn)
    (h' : Pending calls k handle deadline' evictFn') : i = k := by
  by_cases hlt : i < k
  · exact absurd h'.1 (h.not_registers hlt)
  · by_cases hgt : k < i
    · exact absurd h.1 (h'.not_registers hgt)
    · omega

/-! ## Whole runs -/

theorem step_total (s : TTLEvictionScheduler φ) (call : Call φ) : ∃ s', step s call = some s' := by
  cases call with
  | register now handle ttlMs evictFn => exact ⟨_, rfl⟩
  | tick now raises =>
    obtain ⟨r, hr, -⟩ := tick_spec s now raises
    exact ⟨r.scheduler, by rw [step, hr]; rfl⟩

-- What one call does to the entry of a handle.
theorem get?_step {call : Call φ} (hstep : step s call = some s') :
    s'.entries.get? handle = some (deadline, evictFn) ↔
      (s.entries.get? handle = some (deadline, evictFn) ∧ ¬ call.Ends handle deadline) ∨
      ∃ now ttlMs, call = .register now handle ttlMs evictFn ∧
        deadline = now + ttlMs / 1000 := by
  cases call with
  | register now j ttlMs fn =>
    cases hstep
    show (s.entries.set j (now + ttlMs / 1000, fn)).get? handle = some (deadline, evictFn) ↔ _
    rw [Dict.get?_set]
    by_cases hj : j = handle
    · subst hj
      simp only [if_pos, Option.some.injEq, Prod.mk.injEq, Call.Ends, not_true, and_false, false_or,
        Call.register.injEq, true_and]
      constructor
      · rintro ⟨rfl, rfl⟩
        exact ⟨now, ttlMs, ⟨rfl, rfl, rfl⟩, rfl⟩
      · rintro ⟨_, _, ⟨rfl, rfl, rfl⟩, rfl⟩
        exact ⟨rfl, rfl⟩
    · simp [Call.Ends, hj, Ne.symm hj]
  | tick now raises =>
    obtain ⟨r, hr, -, -, hleft⟩ := tick_spec s now raises
    rw [step, hr] at hstep
    cases hstep
    rw [← Dict.mem_entries_iff, hleft, List.mem_filter, Dict.mem_entries_iff]
    simp [Call.Ends]

/-- The table holds the pending registrations. -/
theorem get?_run (hrun : runFrom step {} calls = some s) :
    s.entries.get? handle = some (deadline, evictFn) ↔
      ∃ i, Pending calls i handle deadline evictFn := by
  refine run_invariant_history (I := fun past s ↦ ∀ handle deadline evictFn,
    s.entries.get? handle = some (deadline, evictFn) ↔
      ∃ i, Pending past i handle deadline evictFn) ?_ ?_ hrun handle deadline evictFn
  · intro past m call m' hI hstep handle deadline evictFn
    rw [get?_step hstep, hI]
    simp only [pending_concat, exists_or, exists_and_right, exists_eq, true_and]
  · intro handle deadline evictFn
    simp [Pending, Registers]

theorem tickExact (hrun : runFrom step {} calls = some s) (now : ℚ) (raises : String → Bool) :
    ∃ r, s.tick now raises = some r ∧ TickExact calls s now raises r := by
  obtain ⟨r, hr, hinvoked, hevicted, hleft⟩ := tick_spec s now raises
  have hkeys : r.invoked.map Prod.fst = s.expired now := by
    rw [hinvoked, List.map_map]
    rfl
  refine ⟨r, hr, hinvoked, ?_, ?_, by rw [hkeys, hevicted], hleft⟩
  · rw [hkeys]
    exact s.entries.nodup.sublist (List.filter_sublist.map _)
  · intro handle evictFn
    rw [hinvoked, exists_comm]
    simp [Dict.mem_entries_iff, get?_run hrun]

-- A callback that runs was registered before, its deadline has come, and nothing in between has
-- ended the registration.
theorem Fires.spec (h : Fires calls i j) (hreg : Registers calls i handle deadline evictFn) :
    i < j ∧ (∃ now raises, calls[j]? = some (.tick now raises) ∧ deadline ≤ now) ∧
      ∀ k call, i < k → k < j → calls[k]? = some call → ¬ call.Ends handle deadline := by
  obtain ⟨now, raises, s, r, handle', deadline', evictFn', hj, hrun, hr, hpend, hmem⟩ := h
  obtain ⟨hij, hold⟩ := hpend.1.of_take
  obtain ⟨rfl, rfl, rfl⟩ := hold.unique hreg
  refine ⟨hij, ⟨now, raises, hj, ?_⟩, ?_⟩
  · obtain ⟨r', hr', hexact⟩ := tickExact hrun now raises
    rw [hr, Option.some.injEq] at hr'
    obtain ⟨k, dl, hk, hdl⟩ := (hexact.mem_invoked_iff _ _).mp (hr' ▸ hmem)
    obtain rfl := hpend.unique hk
    rw [(hpend.1.unique hk.1).2.1]
    exact hdl
  · intro k call hik hkj hk
    apply hpend.2 call
    apply mem_drop_of_getElem? hik
    rw [List.getElem?_take_of_lt hkj]
    exact hk

-- A registration does not fire at two ticks, one after the other.
theorem Fires.not_lt {k : Nat} (h : Fires calls i j) (h' : Fires calls i k) : ¬ j < k := by
  intro hjk
  obtain ⟨now, raises, s, r, handle, deadline, evictFn, hj, hrun, hr, hpend, hmem⟩ := id h
  obtain ⟨hij, hreg⟩ := hpend.1.of_take
  obtain ⟨-, ⟨t, raises', hcall, hdue⟩, -⟩ := h.spec hreg
  exact (h'.spec hreg).2.2 j _ hij hjk hcall hdue

/-- Every tick of every run does exactly what it has to do; no registration's callback runs twice,
early, or after its handle was registered anew. -/
theorem scheduler_exact (calls : List (Call φ)) :
    (∃ s, runFrom step {} calls = some s ∧
      ∀ now raises, ∃ r, s.tick now raises = some r ∧ TickExact calls s now raises r) ∧
    (∀ i j k, Fires calls i j → Fires calls i k → j = k) ∧
    (∀ i j handle deadline evictFn now raises, Fires calls i j →
      Registers calls i handle deadline evictFn → calls[j]? = some (.tick now raises) →
      deadline ≤ now) ∧
    (∀ i k j handle deadline evictFn deadline' evictFn', Fires calls i j →
      Registers calls i handle deadline evictFn → Registers calls k handle deadline' evictFn' →
      i < k → j < k) := by
  refine ⟨?_, ?_, ?_, ?_⟩
  · obtain ⟨s, hrun⟩ := run_total step_total {} calls
    exact ⟨s, hrun, tickExact hrun⟩
  · intro i j k hj hk
    have hle := hj.not_lt hk
    have hge := hk.not_lt hj
    omega
  · intro i j handle deadline evictFn now raises hfires hreg hj
    obtain ⟨-, ⟨t, raises', hcall, hdue⟩, -⟩ := hfires.spec hreg
    rw [hj] at hcall
    cases hcall
    exact hdue
  · intro i k j handle deadline evictFn deadline' evictFn' hfires hreg hanew hik
    obtain ⟨-, ⟨t, raises, hj, -⟩, hlater⟩ := hfires.spec hreg
    obtain ⟨now, ttlMs, hk, -⟩ := hanew
    by_contra hle
    by_cases hkj : k = j
    · subst hkj
      rw [hj] at hk
      cases hk
    · exact hlater k _ hik (by omega) hk rfl

end TTLEvictionScheduler

end AsrServe.AgenticFactory
