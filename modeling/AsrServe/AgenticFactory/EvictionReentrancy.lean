import AsrServe.AgenticFactory.EvictionScheduler

/-!
# Callbacks that call the scheduler (`TTLEvictionScheduler` in `agentic-factory/src/agent_hints.py`)

The scheduler's lock lets the thread that holds it in again, so a callback may register handles and
start further ticks while the tick that called it is under way.  A tick is cut here at its
callbacks; the ticks under way form a stack.
-/

open AsrServe.Reasoning

namespace AsrServe.AgenticFactory.TTLEvictionScheduler

/-- A tick whose callback for `current` is running. -/
structure RunningTick where
  -- The handles of its snapshot it has yet to come to.
  remaining : List String
  current : String
  evicted : List String

structure Nested where
  -- The callback of a registration is known by the number of the registration.
  scheduler : TTLEvictionScheduler Nat := {}
  -- Innermost first.
  running : List RunningTick := []
  clock : ℚ := 0
  -- The deadline of each registration.
  deadlines : List ℚ := []
  -- The registrations whose callback was invoked, with the time of the invocation.
  invoked : List (Nat × ℚ) := []
  -- What the ticks that came to their end returned.
  returned : List (List String) := []
  -- The ticks that ended in a `KeyError`.
  raised : Nat := 0

namespace Nested

/-- The loop of `tick` from one callback to the next. -/
def goOn (s : Nested) (remaining evicted : List String) : Nested :=
  match remaining with
  | [] => { s with returned := s.returned ++ [evicted] }
  | handle :: rest =>
    match s.scheduler.entries.get? handle with
    | none => { s with raised := s.raised + 1 }
    | some (_, registration) =>
      { s with
        scheduler := { entries := s.scheduler.entries.erase handle }
        invoked := s.invoked ++ [(registration, s.clock)]
        running := { remaining := rest, current := handle, evicted := evicted } :: s.running }

/-- `now` is what the call read off the clock, at once or before it got hold of the lock. -/
inductive Event where
  | pass (time : ℚ)
  | register (now : ℚ) (handle : String) (ttlMs : Int)
  | tick (now : ℚ)
  | callbackEnds (raises : Bool)
deriving DecidableEq

def registered (s : Nested) (now : ℚ) (handle : String) (ttlMs : Int) : Nested :=
  { s with
    scheduler := s.scheduler.register now handle ttlMs s.deadlines.length
    deadlines := s.deadlines ++ [now + ttlMs / 1000] }

-- The rest of the `try`: a callback that raises is not reported as an eviction.
def ended (s : Nested) (t : RunningTick) (below : List RunningTick) (raises : Bool) : Nested :=
  goOn { s with running := below } t.remaining
    (if raises then t.evicted else t.evicted ++ [t.current])

/-- What a call can do next, from outside or, while a tick is running, from its callback. -/
def step (s : Nested) : Event → Option Nested
  | .pass time => if s.clock ≤ time then some { s with clock := time } else none
  | .register now handle ttlMs =>
    if now ≤ s.clock then some (s.registered now handle ttlMs) else none
  | .tick now => if now ≤ s.clock then some (s.goOn (s.scheduler.expired now) []) else none
  | .callbackEnds raises =>
    match s.running with
    | [] => none
    | t :: below => some (s.ended t below raises)

/-! ## What is asked of every state -/

/-- No tick has raised, and no callback was invoked early or twice. -/
structure Safe (s : Nested) : Prop where
  raised_eq : s.raised = 0
  due : ∀ p ∈ s.invoked, ∀ deadline ∈ s.deadlines[p.1]?, deadline ≤ p.2
  once : (s.invoked.map Prod.fst).Nodup

instance (s : Nested) : Decidable s.Safe :=
  decidable_of_iff (s.raised = 0 ∧ (∀ p ∈ s.invoked, ∀ deadline ∈ s.deadlines[p.1]?,
      deadline ≤ p.2) ∧ (s.invoked.map Prod.fst).Nodup)
    ⟨fun h ↦ ⟨h.1, h.2.1, h.2.2⟩, fun h ↦ ⟨h.raised_eq, h.due, h.once⟩⟩

-- The handle is in the table and its deadline has come.
def Due (s : Nested) (handle : String) : Prop :=
  ∃ deadline registration, s.scheduler.entries.get? handle = some (deadline, registration) ∧
    deadline ≤ s.clock

/-- The table knows each registration by its own deadline and number, and none that was invoked. -/
structure Consistent (s : Nested) : Prop where
  deadline_eq : ∀ handle deadline registration,
    s.scheduler.entries.get? handle = some (deadline, registration) →
      s.deadlines[registration]? = some deadline
  not_invoked : ∀ handle deadline registration,
    s.scheduler.entries.get? handle = some (deadline, registration) →
      registration ∉ s.invoked.map Prod.fst
  inj : ∀ handle handle' deadline deadline' registration,
    s.scheduler.entries.get? handle = some (deadline, registration) →
      s.scheduler.entries.get? handle' = some (deadline', registration) → handle = handle'
  invoked_lt : ∀ p ∈ s.invoked, p.1 < s.deadlines.length

/-! ## One step -/

variable {s s' : Nested}

theorem goOn_consistent (hc : s.Consistent) (remaining evicted : List String) :
    (s.goOn remaining evicted).Consistent := by
  cases remaining with
  | nil => exact ⟨hc.deadline_eq, hc.not_invoked, hc.inj, hc.invoked_lt⟩
  | cons handle rest =>
    rw [goOn]
    cases hget : s.scheduler.entries.get? handle with
    | none => exact ⟨hc.deadline_eq, hc.not_invoked, hc.inj, hc.invoked_lt⟩
    | some entry =>
      obtain ⟨deadline, registration⟩ := entry
      -- what is left in the table was there before, under another handle
      have hold {h : String} {e : ℚ × Nat}
          (he : (s.scheduler.entries.erase handle).get? h = some e) :
          h ≠ handle ∧ s.scheduler.entries.get? h = some e := by
        rw [Dict.get?_erase] at he
        by_cases heq : h = handle
        · rw [if_pos heq] at he
          cases he
        · rw [if_neg heq] at he
          exact ⟨heq, he⟩
      refine ⟨?_, ?_, ?_, ?_⟩
      · intro h dl r he
        exact hc.deadline_eq h dl r (hold he).2
      · intro h dl r he hmem
        obtain ⟨hne, hbefore⟩ := hold he
        rw [List.map_append, List.mem_append, List.map_singleton, List.mem_singleton] at hmem
        rcases hmem with hmem | rfl
        · exact hc.not_invoked h dl r hbefore hmem
        · exact hne (hc.inj h handle dl deadline _ hbefore hget)
      · intro h h' dl dl' r he he'
        exact hc.inj h h' dl dl' r (hold he).2 (hold he').2
      · intro p hp
        rcases List.mem_append.mp hp with hp | hp
        · exact hc.invoked_lt p hp
        · rw [List.mem_singleton.mp hp]
          exact (List.getElem?_eq_some_iff.mp (hc.deadline_eq handle deadline _ hget)).1

/-- A tick goes on safely just when its next handle is in the table and due. -/
theorem goOn_safe_iff (hc : s.Consistent) (hs : s.Safe) (remaining evicted : List String) :
    (s.goOn remaining evicted).Safe ↔ ∀ handle ∈ remaining.head?, s.Due handle := by
  cases remaining with
  | nil => exact iff_of_true ⟨hs.raised_eq, hs.due, hs.once⟩ (fun _ h ↦ nomatch h)
  | cons handle rest =>
    rw [goOn, List.head?_cons]
    cases hget : s.scheduler.entries.get? handle with
    | none =>
      apply iff_of_false
      · intro h
        exact absurd h.raised_eq (Nat.succ_ne_zero _)
      · intro h
        obtain ⟨deadline, registration, hentry, -⟩ := h handle rfl
        rw [hget] at hentry
        cases hentry
    | some entry =>
      obtain ⟨deadline, registration⟩ := entry
      have hdeadline := hc.deadline_eq handle deadline registration hget
      constructor
      · intro h j hj
        cases hj
        exact ⟨deadline, registration, hget,
          h.due _ (List.mem_append_right _ (List.mem_singleton.mpr rfl)) deadline hdeadline⟩
      · intro h
        obtain ⟨deadline', registration', hentry, hdue⟩ := h handle rfl
        rw [hget] at hentry
        cases hentry
        refine ⟨hs.raised_eq, ?_, ?_⟩
        · intro p hp dl hdl
          rcases List.mem_append.mp hp with hp | hp
          · exact hs.due p hp dl hdl
          · rw [List.mem_singleton.mp hp] at hdl ⊢
            rw [hdeadline] at hdl
            cases hdl
            exact hdue
        · have hnew := hc.not_invoked handle deadline registration hget
          rw [List.map_append, List.map_singleton, List.nodup_append]
          refine ⟨hs.once, List.nodup_singleton _, ?_⟩
          intro a ha b hb heq
          rw [heq, List.mem_singleton.mp hb] at ha
          exact hnew ha

/-- Before a tick goes on, its next handle is in the table and due. -/
def NextDue (s : Nested) : Event → Prop
  | .callbackEnds _ => ∀ t ∈ s.running.head?, ∀ handle ∈ t.remaining.head?, s.Due handle
  | _ => True

theorem due_of_mem_expired {now : ℚ} {handle : String} (h : handle ∈ s.scheduler.expired now)
    (hnow : now ≤ s.clock) : s.Due handle := by
  obtain ⟨⟨_, deadline, registration⟩, hmem, rfl⟩ := List.mem_map.mp h
  obtain ⟨hentry, hexpired⟩ := List.mem_filter.mp hmem
  exact ⟨deadline, registration, Dict.mem_entries_iff.mp hentry,
    (of_decide_eq_true hexpired).trans hnow⟩

/-- The four steps with what each of them asks for. -/
inductive Moves (s : Nested) : Event → Nested → Prop where
  | pass {time : ℚ} : s.clock ≤ time → Moves s (.pass time) { s with clock := time }
  | register {now : ℚ} {handle : String} {ttlMs : Int} : now ≤ s.clock →
      Moves s (.register now handle ttlMs) (s.registered now handle ttlMs)
  | tick {now : ℚ} : now ≤ s.clock → Moves s (.tick now) (s.goOn (s.scheduler.expired now) [])
  | callbackEnds {raises : Bool} {t : RunningTick} {below : List RunningTick} :
      s.running = t :: below → Moves s (.callbackEnds raises) (s.ended t below raises)

theorem step_moves {event : Event} (h : step s event = some s') : Moves s event s' := by
  cases event with
  | pass time =>
    obtain ⟨hle, heq⟩ := Option.ite_none_right_eq_some.mp h
    cases heq
    exact .pass hle
  | register now handle ttlMs =>
    obtain ⟨hle, heq⟩ := Option.ite_none_right_eq_some.mp h
    cases heq
    exact .register hle
  | tick now =>
    obtain ⟨hle, heq⟩ := Option.ite_none_right_eq_some.mp h
    cases heq
    exact .tick hle
  | callbackEnds raises =>
    rw [step] at h
    cases hrunning : s.running with
    | nil =>
      rw [hrunning] at h
      cases h
    | cons t below =>
      rw [hrunning] at h
      cases h
      exact .callbackEnds hrunning

theorem register_consistent (hc : s.Consistent) (now : ℚ) (handle : String) (ttlMs : Int) :
    (s.registered now handle ttlMs).Consistent := by
  -- an entry is the new one or an old one
  have hentry {h : String} {dl : ℚ} {r : Nat}
      (he : (s.scheduler.entries.set handle (now + ttlMs / 1000, s.deadlines.length)).get? h =
        some (dl, r)) :
      (h = handle ∧ dl = now + ttlMs / 1000 ∧ r = s.deadlines.length) ∨
        (r < s.deadlines.length ∧ s.scheduler.entries.get? h = some (dl, r)) := by
    rcases Dict.get?_set_cases he with ⟨heq, hnew⟩ | ⟨-, hold⟩
    · cases hnew
      exact .inl ⟨heq, rfl, rfl⟩
    · exact .inr ⟨(List.getElem?_eq_some_iff.mp (hc.deadline_eq h dl r hold)).1, hold⟩
  refine ⟨?_, ?_, ?_, ?_⟩
  · intro h dl r he
    show (s.deadlines ++ [now + ttlMs / 1000])[r]? = some dl
    rcases hentry he with ⟨-, rfl, rfl⟩ | ⟨hlt, hold⟩
    · rw [List.getElem?_append_right le_rfl, Nat.sub_self]
      rfl
    · rw [List.getElem?_append_left hlt]
      exact hc.deadline_eq h dl r hold
  · intro h dl r he hmem
    rcases hentry he with ⟨-, -, rfl⟩ | ⟨-, hold⟩
    · obtain ⟨p, hp, heq⟩ := List.mem_map.mp hmem
      exact absurd (hc.invoked_lt p hp) (by omega)
    · exact hc.not_invoked h dl r hold hmem
  · intro h h' dl dl' r he he'
    rcases hentry he with ⟨rfl, -, rfl⟩ | ⟨hlt, hold⟩
    · rcases hentry he' with ⟨rfl, -, -⟩ | ⟨hlt', -⟩
      · rfl
      · exact absurd hlt' (lt_irrefl _)
    · rcases hentry he' with ⟨-, -, rfl⟩ | ⟨-, hold'⟩
      · exact absurd hlt (lt_irrefl _)
      · exact hc.inj h h' dl dl' r hold hold'
  · intro p hp
    rw [registered, List.length_append, List.length_singleton]
    exact Nat.lt_succ_of_lt (hc.invoked_lt p hp)

-- Which ticks are under way says nothing about the table.
theorem Consistent.popped (hc : s.Consistent) (below : List RunningTick) :
    Consistent { s with running := below } :=
  ⟨hc.deadline_eq, hc.not_invoked, hc.inj, hc.invoked_lt⟩

theorem Moves.consistent {event : Event} (h : Moves s event s') (hc : s.Consistent) :
    s'.Consistent := by
  cases h with
  | pass _ => exact ⟨hc.deadline_eq, hc.not_invoked, hc.inj, hc.invoked_lt⟩
  | register _ => exact register_consistent hc _ _ _
  | tick _ => exact goOn_consistent hc _ _
  | callbackEnds _ => exact goOn_consistent (hc.popped _) _ _

/-- One step keeps the promise just when a tick that goes on finds its next handle due. -/
theorem Moves.safe_iff {event : Event} (h : Moves s event s') (hc : s.Consistent) (hs : s.Safe) :
    s'.Safe ↔ s.NextDue event := by
  cases h with
  | pass _ => exact iff_of_true ⟨hs.raised_eq, hs.due, hs.once⟩ trivial
  | @register now handle ttlMs _ =>
    apply iff_of_true _ trivial
    refine ⟨hs.raised_eq, ?_, hs.once⟩
    intro p hp deadline hdeadline
    apply hs.due p hp
    rwa [registered, List.getElem?_append_left (hc.invoked_lt p hp)] at hdeadline
  | @tick now hnow =>
    rw [goOn_safe_iff hc hs]
    apply iff_of_true _ trivial
    intro handle hhead
    exact due_of_mem_expired (List.mem_of_mem_head? hhead) hnow
  | @callbackEnds raises t below hrunning =>
    have hpopped : Safe { s with running := below } := ⟨hs.raised_eq, hs.due, hs.once⟩
    rw [ended, goOn_safe_iff (hc.popped below) hpopped, NextDue, hrunning, List.head?_cons]
    exact ⟨fun hdue t' ht' ↦ by cases ht'; exact hdue, fun hdue ↦ hdue t rfl⟩

/-! ## Callbacks that call nothing -/

/-- What one tick adds when its callbacks only return or raise. -/
structure Adds (s s' : Nested) (t r : Tick Nat) : Prop where
  scheduler_eq : s'.scheduler = r.scheduler
  running_eq : s'.running = s.running
  raised_eq : s'.raised = s.raised
  returned_eq : s'.returned = s.returned ++ [r.evicted]
  invoked_eq : ∃ new, r.invoked = t.invoked ++ new ∧
    s'.invoked = s.invoked ++ new.map fun p ↦ (p.2, s.clock)

theorem runFrom_callbacks (raises : String → Bool) {handles : List String} {t r : Tick Nat}
    (hsched : s.scheduler = t.scheduler)
    (hfold : handles.foldlM (evictOne raises) t = some r) :
    ∃ s', runFrom step (s.goOn handles t.evicted)
      (handles.map fun handle ↦ .callbackEnds (raises handle)) = some s' ∧ Adds s s' t r := by
  induction handles generalizing s t with
  | nil =>
    cases hfold
    exact ⟨_, rfl, hsched, rfl, rfl, rfl, [], (List.append_nil _).symm, (List.append_nil _).symm⟩
  | cons handle rest ih =>
    rw [List.foldlM_cons, evictOne] at hfold
    cases hget : t.scheduler.entries.get? handle with
    | none =>
      rw [hget] at hfold
      cases hfold
    | some entry =>
      obtain ⟨deadline, registration⟩ := entry
      rw [hget] at hfold
      obtain ⟨s', hrun, hadds⟩ := ih (s := { s with
          scheduler := { entries := t.scheduler.entries.erase handle }
          invoked := s.invoked ++ [(registration, s.clock)] }) rfl hfold
      obtain ⟨new, hnew, hinvoked⟩ := hadds.invoked_eq
      refine ⟨s', ?_, hadds.scheduler_eq, hadds.running_eq, hadds.raised_eq, hadds.returned_eq,
        (handle, registration) :: new, ?_, ?_⟩
      · rw [goOn, hsched, hget, List.map_cons, runFrom_cons]
        exact hrun
      · rw [hnew, List.append_assoc, List.singleton_append]
      · rw [hinvoked, List.append_assoc, List.map_cons, List.singleton_append]

/-- Cut at its callbacks or not, such a tick does the same. -/
theorem tick_uninterrupted {now : ℚ} (hnow : now ≤ s.clock) (raises : String → Bool) {r : Tick Nat}
    (htick : s.scheduler.tick now raises = some r) :
    ∃ s', runFrom step s (.tick now ::
        (s.scheduler.expired now).map fun handle ↦ .callbackEnds (raises handle)) = some s' ∧
      Adds s s' { scheduler := s.scheduler } r := by
  obtain ⟨s', hrun, hadds⟩ := runFrom_callbacks raises (s := s) rfl htick
  refine ⟨s', runFrom_cons_eq_some.mpr ⟨_, if_pos hnow, hrun⟩, hadds⟩

/-! ## Callbacks that leave the snapshots alone -/

/-- While a tick has handles left, no callback starts a tick, nor registers one of them with a
deadline to come. -/
def LeavesSnapshots (s : Nested) : Event → Prop
  | .register now handle ttlMs =>
    ∀ t ∈ s.running, handle ∈ t.remaining → now + ttlMs / 1000 ≤ s.clock
  | .tick _ => ∀ t ∈ s.running, t.remaining = []
  | _ => True

instance (s : Nested) : ∀ event, Decidable (s.LeavesSnapshots event)
  | .register _ handle _ =>
    inferInstanceAs (Decidable (∀ t ∈ s.running, handle ∈ t.remaining → _ ≤ s.clock))
  | .tick _ => inferInstanceAs (Decidable (∀ t ∈ s.running, t.remaining = []))
  | .pass _ => .isTrue trivial
  | .callbackEnds _ => .isTrue trivial

/-- Only the innermost tick has handles left, and these are due. -/
structure SnapshotDue (s : Nested) : Prop where
  below_done : ∀ t ∈ s.running.tail, t.remaining = []
  nodup : ∀ t ∈ s.running.head?, t.remaining.Nodup
  due : ∀ t ∈ s.running.head?, ∀ handle ∈ t.remaining, s.Due handle

theorem goOn_snapshotDue {remaining : List String} (evicted : List String)
    (hnd : remaining.Nodup) (hdue : ∀ handle ∈ remaining, s.Due handle)
    (hdone : ∀ t ∈ s.running, t.remaining = []) : (s.goOn remaining evicted).SnapshotDue := by
  cases remaining with
  | nil =>
    refine ⟨fun t ht ↦ hdone t (List.mem_of_mem_tail ht), ?_, ?_⟩
    · intro t ht
      rw [hdone t (List.mem_of_mem_head? ht)]
      exact List.nodup_nil
    · intro t ht handle hmem
      rw [hdone t (List.mem_of_mem_head? ht)] at hmem
      cases hmem
  | cons handle rest =>
    obtain ⟨hnew, hrest⟩ := List.nodup_cons.mp hnd
    obtain ⟨deadline, registration, hget, -⟩ := hdue handle List.mem_cons_self
    rw [goOn, hget]
    refine ⟨hdone, ?_, ?_⟩
    · intro t ht
      cases ht
      exact hrest
    · intro t ht h hmem
      cases ht
      obtain ⟨dl, r, hentry, hle⟩ := hdue h (List.mem_cons_of_mem _ hmem)
      have hne : h ≠ handle := fun heq ↦ hnew (heq ▸ hmem)
      exact ⟨dl, r, (Dict.get?_erase_of_ne _ hne).trans hentry, hle⟩

theorem SnapshotDue.nextDue (h : s.SnapshotDue) (event : Event) : s.NextDue event := by
  cases event with
  | callbackEnds raises =>
    intro t ht handle hhead
    exact h.due t ht handle (List.mem_of_mem_head? hhead)
  | pass time => trivial
  | register now handle ttlMs => trivial
  | tick now => trivial

theorem Moves.snapshotDue {event : Event} (h : Moves s event s') (hj : s.SnapshotDue)
    (hleaves : s.LeavesSnapshots event) : s'.SnapshotDue := by
  cases h with
  | @pass time hle =>
    refine ⟨hj.below_done, hj.nodup, ?_⟩
    intro t ht handle hmem
    obtain ⟨dl, r, hentry, hdue⟩ := hj.due t ht handle hmem
    exact ⟨dl, r, hentry, hdue.trans hle⟩
  | @register now handle ttlMs _ =>
    refine ⟨hj.below_done, hj.nodup, ?_⟩
    intro t ht j hmem
    by_cases heq : j = handle
    · subst heq
      exact ⟨_, _, Dict.get?_set_self _ _ _, hleaves t (List.mem_of_mem_head? ht) hmem⟩
    · obtain ⟨dl, r, hentry, hdue⟩ := hj.due t ht j hmem
      exact ⟨dl, r, (Dict.get?_set_of_ne _ _ heq).trans hentry, hdue⟩
  | @tick now hnow =>
    exact goOn_snapshotDue _ (s.scheduler.entries.nodup.sublist (List.filter_sublist.map _))
      (fun _ hmem ↦ due_of_mem_expired hmem hnow) hleaves
  | @callbackEnds raises t below hrunning =>
    have htop : t ∈ s.running.head? := by rw [hrunning]; rfl
    have hbelow : ∀ t' ∈ below, t'.remaining = [] := by
      have hdone := hj.below_done
      rwa [hrunning] at hdone
    exact goOn_snapshotDue _ (hj.nodup t htop) (hj.due t htop) hbelow

/-! ## Whole runs -/

theorem consistent_fresh : ({} : Nested).Consistent :=
  ⟨fun _ _ _ h ↦ (nomatch h), fun _ _ _ h ↦ (nomatch h), fun _ _ _ _ _ h ↦ (nomatch h),
    fun _ h ↦ (nomatch h)⟩

theorem safe_fresh : ({} : Nested).Safe := ⟨rfl, fun _ h ↦ (nomatch h), List.nodup_nil⟩

/-- No tick raises and no callback is early or repeated, in every state of a run, just when each
tick that goes on finds its next handle due; and so it is when the callbacks leave the snapshots
alone. -/
theorem reentrant_safe_iff (events : List Event) :
    (Along step (fun _ _ s' ↦ s'.Safe) {} events ↔
      Along step (fun s event _ ↦ s.NextDue event) {} events) ∧
    (Along step (fun s event _ ↦ s.LeavesSnapshots event) {} events →
      Along step (fun _ _ s' ↦ s'.Safe) {} events) := by
  have hiff : Along step (fun _ _ s' ↦ s'.Safe) {} events ↔
      Along step (fun s event _ ↦ s.NextDue event) {} events := by
    apply along_congr (I := fun s ↦ s.Consistent ∧ s.Safe)
    · intro s event s' hi hstep
      exact (step_moves hstep).safe_iff hi.1 hi.2
    · intro s event s' hi hstep hsafe
      exact ⟨(step_moves hstep).consistent hi.1, hsafe⟩
    · exact ⟨consistent_fresh, safe_fresh⟩
  refine ⟨hiff, fun hleaves ↦ hiff.mpr ?_⟩
  apply along_of_meets (I := SnapshotDue) _ _ hleaves
  · intro s event s' hj hstep hcond
    exact ⟨hj.nextDue event, (step_moves hstep).snapshotDue hj hcond⟩
  · exact ⟨fun _ h ↦ (nomatch h), fun _ h ↦ (nomatch h), fun _ h ↦ (nomatch h)⟩

-- Two handles expire at once; each callback registers its own handle anew, the second ticks too.
def ownHandles : List Event :=
  [.register 0 "kv-0" 0, .register 0 "kv-1" 0, .tick 0, .register 0 "kv-0" 1000,
    .callbackEnds false, .register 0 "kv-1" 1000, .pass 1, .tick 1, .callbackEnds true]

theorem ownHandles_safe : Along step (fun _ _ s' ↦ s'.Safe) {} ownHandles :=
  (reentrant_safe_iff ownHandles).2 (by decide +kernel)

-- Two handles expire at once and the callback of the first starts a tick.
def nestedTick : List Event :=
  [.register 0 "kv-0" 0, .register 0 "kv-1" 0, .tick 0, .tick 0, .callbackEnds false,
    .callbackEnds false]

-- Two handles expire at once and the callback of the first registers the second anew.
def registeredAnew : List Event :=
  [.register 0 "kv-0" 0, .register 0 "kv-1" 0, .tick 0, .register 0 "kv-1" 1000,
    .callbackEnds false]

/-- In the first run the outer tick raises, in the second the fresh registration is evicted a second
early. -/
theorem reentrant_unsafe :
    (runFrom step {} nestedTick).map raised = some 1 ∧
      (runFrom step {} registeredAnew).map invoked = some [(0, 0), (2, 0)] ∧
      ¬ Along step (fun _ _ s' ↦ s'.Safe) {} nestedTick ∧
      ¬ Along step (fun _ _ s' ↦ s'.Safe) {} registeredAnew := by
  decide +kernel

end Nested

end AsrServe.AgenticFactory.TTLEvictionScheduler
