import AsrServe.AgenticFactory.EvictionScheduler
import AsrServe.Reasoning.Runs
import Mathlib.Tactic.Linarith

/-!
# The eviction loop (`TTLEvictionScheduler.run_loop` in `agentic-factory/src/agent_hints.py`)

The loop beside registrations, on a clock that moves on between the events.  `asyncio.sleep` ends at
most one tick of the event loop's clock early, and as late as the event loop is busy.
-/

open AsrServe.Reasoning

namespace AsrServe.AgenticFactory.TTLEvictionScheduler

variable {φ : Type}

structure Loop (φ : Type) where
  scheduler : TTLEvictionScheduler φ := {}
  -- The monotonic clock.
  now : ℚ
  -- When the sleep is over.
  due : ℚ

-- Every call is on record at its end; the clock was read at `read`, before the lock.
inductive Event (φ : Type) where
  | passes (time : ℚ)
  | register (read : ℚ) (handle : String) (ttlMs : Int) (evictFn : φ)
  | tick (read : ℚ) (raises : String → Bool)

-- The first tick comes at once.
def Loop.start (now : ℚ) : Loop φ where
  now := now
  due := now

section Loop

variable (interval resolution : ℚ)

def Loop.step (s : Loop φ) : Event φ → Option (Loop φ)
  | .passes time => if 0 ≤ time then some { s with now := s.now + time } else none
  | .register read handle ttlMs evictFn =>
    if read ≤ s.now then
      some { s with scheduler := s.scheduler.register read handle ttlMs evictFn }
    else none
  | .tick read raises =>
    if s.due ≤ read + resolution ∧ read ≤ s.now then
      (s.scheduler.tick read raises).map fun r ↦
        -- a sleep of no time or less is a bare yield
        { s with scheduler := r.scheduler, due := s.now + max interval 0 }
    else none

/-- The loop has its turn at most `late` after its sleep is over. -/
def OnTime (late : ℚ) (s : Loop φ) (events : List (Event φ)) : Prop :=
  Along (Loop.step interval resolution) (fun _ _ s' ↦ s'.now ≤ s'.due + late) s events

/-- When a handle with this deadline, registered at `now`, is evicted at the latest. -/
def latest (late now deadline : ℚ) : ℚ := max now deadline + max interval 0 + 2 * late + resolution

-- The registration is in the table, and the next tick is not far behind its deadline.
structure Waiting (late now : ℚ) (handle : String) (deadline : ℚ) (evictFn : φ) (s : Loop φ) :
    Prop where
  entry : s.scheduler.entries.get? handle = some (deadline, evictFn)
  turn : s.now ≤ s.due + late
  due : s.due ≤ max now deadline + max interval 0 + late + resolution

/-- The event registers `handle` anew, or is a tick that invokes the callback. -/
def Ends (handle : String) (evictFn : φ) (s : Loop φ) : Event φ → Prop
  | .passes _ => False
  | .register _ j _ _ => j = handle
  | .tick read raises => ∃ r, s.scheduler.tick read raises = some r ∧ (handle, evictFn) ∈ r.invoked

end Loop

/-! ## One event -/

variable {interval resolution late : ℚ} {s s' : Loop φ} {event : Event φ}

/-- What an event has done. -/
theorem Loop.step_cases (h : s.step interval resolution event = some s') :
    (∃ time, event = .passes time ∧ 0 ≤ time ∧ s' = { s with now := s.now + time }) ∨
    (∃ read handle ttlMs evictFn, event = .register read handle ttlMs evictFn ∧ read ≤ s.now ∧
      s' = { s with scheduler := s.scheduler.register read handle ttlMs evictFn }) ∨
    (∃ read raises r, event = .tick read raises ∧ s.due ≤ read + resolution ∧ read ≤ s.now ∧
      s.scheduler.tick read raises = some r ∧
      s' = { s with scheduler := r.scheduler, due := s.now + max interval 0 }) := by
  cases event with
  | passes time =>
    obtain ⟨htime, h⟩ := Option.ite_none_right_eq_some.mp h
    exact .inl ⟨time, rfl, htime, (Option.some.inj h).symm⟩
  | register read handle ttlMs evictFn =>
    obtain ⟨hread, h⟩ := Option.ite_none_right_eq_some.mp h
    exact .inr (.inl ⟨read, handle, ttlMs, evictFn, rfl, hread, (Option.some.inj h).symm⟩)
  | tick read raises =>
    obtain ⟨⟨hdue, hread⟩, h⟩ := Option.ite_none_right_eq_some.mp h
    obtain ⟨r, hr, h⟩ := Option.map_eq_some_iff.mp h
    exact .inr (.inr ⟨read, raises, r, rfl, hdue, hread, hr, h.symm⟩)

-- The next tick is never further off than the interval.
theorem due_le_step (h : s.step interval resolution event = some s')
    (hdue : s.due ≤ s.now + max interval 0) : s'.due ≤ s'.now + max interval 0 := by
  obtain ⟨time, -, htime, rfl⟩ | ⟨read, handle, ttlMs, evictFn, -, -, rfl⟩ |
    ⟨read, raises, r, -, -, -, -, rfl⟩ := Loop.step_cases h
  · exact hdue.trans (by dsimp only; linarith)
  · exact hdue
  · exact le_rfl

variable {now deadline : ℚ} {handle : String} {evictFn : φ}

/-- The step of the argument: a tick that leaves the handle alone has read the clock before the
deadline, so that the next one is an interval later at most. -/
theorem Waiting.step (h : Waiting interval resolution late now handle deadline evictFn s)
    (hstep : s.step interval resolution event = some s') (hturn : s'.now ≤ s'.due + late) :
    Ends handle evictFn s event ∨
      Waiting interval resolution late now handle deadline evictFn s' := by
  obtain ⟨time, rfl, htime, rfl⟩ | ⟨read, j, ttlMs, fn, rfl, -, rfl⟩ |
    ⟨read, raises, r, rfl, hdue, hread, hr, rfl⟩ := Loop.step_cases hstep
  · exact .inr ⟨h.entry, hturn, h.due⟩
  · by_cases hj : j = handle
    · exact .inl hj
    · refine .inr ⟨?_, hturn, h.due⟩
      show (s.scheduler.entries.set j _).get? handle = _
      rw [Dict.get?_set_of_ne _ _ (Ne.symm hj)]
      exact h.entry
  · obtain ⟨r', hr', hinvoked, -, hleft⟩ := tick_spec s.scheduler read raises
    rw [hr, Option.some.injEq] at hr'
    subst hr'
    have hmem := Dict.mem_entries_iff.mpr h.entry
    by_cases hpast : deadline ≤ read
    · refine .inl ⟨r, hr, ?_⟩
      rw [hinvoked]
      exact List.mem_map.mpr ⟨_, List.mem_filter.mpr ⟨hmem, decide_eq_true hpast⟩, rfl⟩
    · refine .inr ⟨?_, hturn, ?_⟩
      · rw [← Dict.mem_entries_iff, hleft]
        exact List.mem_filter.mpr ⟨hmem, decide_eq_true (not_le.mp hpast)⟩
      · have hmax := le_max_right now deadline
        have hnow := h.turn
        show s.now + max interval 0 ≤ _
        linarith

/-! ## Whole runs -/

theorem Waiting.now_le (h : Waiting interval resolution late now handle deadline evictFn s) :
    s.now ≤ latest interval resolution late now deadline := by
  have hturn := h.turn
  have hdue := h.due
  rw [latest]
  linarith

/-- Beside an eviction loop that gets its turns, no handle stays in the table for long.  From a
registration on, either the clock has not passed the deadline (or the registration, if that came
later) by more than an interval, twice the lateness and the resolution of the event loop's clock;
or the handle has been registered anew; or a tick has invoked the callback by then. -/
theorem evicted_promptly (hres : 0 ≤ resolution) (hlate : 0 ≤ late) {t₀ : ℚ}
    {before after : List (Event φ)} {read : ℚ} {ttlMs : Int} {m : Loop φ}
    (htime : OnTime interval resolution late (.start t₀)
      (before ++ .register read handle ttlMs evictFn :: after))
    (hbefore : runFrom (Loop.step interval resolution) (.start t₀) before = some m)
    (hrun : runFrom (Loop.step interval resolution) (.start t₀)
      (before ++ .register read handle ttlMs evictFn :: after) = some s) :
    s.now ≤ latest interval resolution late m.now (read + ttlMs / 1000) ∨
    (∃ read' ttlMs' fn, .register read' handle ttlMs' fn ∈ after) ∨
    (∃ between rest found read' raises r, after = between ++ .tick read' raises :: rest ∧
      runFrom (Loop.step interval resolution) (.start t₀)
        (before ++ .register read handle ttlMs evictFn :: between) = some found ∧
      found.now ≤ latest interval resolution late m.now (read + ttlMs / 1000) ∧
      found.scheduler.tick read' raises = some r ∧ (handle, evictFn) ∈ r.invoked) := by
  obtain ⟨m', hm', hlast⟩ := runFrom_append_eq_some.mp hrun
  rw [hbefore, Option.some.injEq] at hm'
  subst hm'
  obtain ⟨m₁, hreg, hafter⟩ := runFrom_cons_eq_some.mp hlast
  obtain ⟨hturn, hrest⟩ := (along_append.mp htime).2 m hbefore m₁ hreg
  have hdue : m.due ≤ m.now + max interval 0 :=
    run_invariant (fun s e s' hs hstep ↦ due_le_step hstep hs)
      (show t₀ ≤ t₀ + max interval 0 by have := le_max_right interval 0; linarith) hbefore
  have hstart : Waiting interval resolution late m.now handle (read + ttlMs / 1000) evictFn m₁ := by
    obtain ⟨-, hreg⟩ := Option.ite_none_right_eq_some.mp hreg
    cases hreg
    refine ⟨Dict.get?_set_self .., hturn, ?_⟩
    have hmax := le_max_left m.now (read + ttlMs / 1000)
    show m.due ≤ _
    linarith
  obtain ⟨between, event, rest, found, found', hsplit, hfound, hstep, hwait, hends⟩ | hwait :=
    run_invariant_until (E := fun s e _ ↦ Ends handle evictFn s e)
      (fun s e s' hs hq hstep ↦ hs.step hstep hq) hstart hrest hafter
  · right
    cases event with
    | passes => exact hends.elim
    | register read' j ttlMs' fn =>
      refine .inl ⟨read', ttlMs', fn, ?_⟩
      rw [hsplit, ← show j = handle from hends]
      exact List.mem_append_right _ List.mem_cons_self
    | tick read' raises =>
      obtain ⟨r, hr, hmem⟩ := hends
      refine .inr ⟨between, rest, found, read', raises, r, hsplit, ?_, hwait.now_le, hr, hmem⟩
      exact runFrom_append_eq_some.mpr ⟨m, hbefore, runFrom_cons_eq_some.mpr ⟨m₁, hreg, hfound⟩⟩
  · exact .inl hwait.now_le

-- A handle with half a second, and six rounds of the loop that are each a hundredth late.
def sixRounds : List (Event Nat) :=
  (List.range 6).flatMap fun i ↦
    [.tick (11 * i / 100) fun _ ↦ false, .passes (11 / 100)]

theorem sixRounds_evict :
    ∃ between rest found read raises r, sixRounds = between ++ .tick read raises :: rest ∧
      runFrom (Loop.step (1 / 10) 0) (.start 0) (.register 0 "frame-000000" 500 7 :: between) =
        some found ∧
      found.scheduler.tick read raises = some r ∧ ("frame-000000", 7) ∈ r.invoked := by
  have hlong : (runFrom (Loop.step (1 / 10) 0) (.start 0)
      (.register 0 "frame-000000" 500 7 :: sixRounds)).any fun s ↦
        decide (¬ s.now ≤ latest (1 / 10) 0 (1 / 100) 0 (0 + (500 : Int) / 1000)) := by
    decide +kernel
  obtain ⟨s, hrun, hlong⟩ := Option.any_eq_true _ _ |>.mp hlong
  have htime : OnTime (1 / 10) 0 (1 / 100) (.start 0)
      ([] ++ .register 0 "frame-000000" 500 7 :: sixRounds) := by
    unfold OnTime
    decide +kernel
  obtain hsoon | ⟨_, _, _, hanew⟩ | ⟨between, rest, found, read, raises, r, hsplit, hfound, -, hr,
    hmem⟩ := evicted_promptly le_rfl (by norm_num) htime rfl hrun
  · exact absurd hsoon (of_decide_eq_true hlong)
  · simp [sixRounds] at hanew
  · exact ⟨between, rest, found, read, raises, r, hsplit, hfound, hr, hmem⟩

end AsrServe.AgenticFactory.TTLEvictionScheduler
