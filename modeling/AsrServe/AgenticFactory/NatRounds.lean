import AsrServe.AgenticFactory.NatLoop
import Mathlib.Data.List.ModifyLast

/-!
# The rounds of the agent (`NATAgent` in `agentic-factory/src/nat_agent.py`)

What the events of a run say about each round of the loop, what `reason` returned in it and how many
of its tool calls came back, and that the agent has decided and done just that.
-/

open AsrServe.Reasoning

namespace AsrServe.AgenticFactory.NATAgent

/-! ## The rounds of a run -/

/-- The events of each round so far, oldest first, and whether the loop goes on to another. -/
structure Rounds where
  running : Bool := false
  rounds : List (List Event) := []

-- A round begins when `run` is called, and when the agent wakes and has not been stopped.
def Rounds.add (r : Rounds) : Event → Rounds
  | .start => { running := true, rounds := r.rounds ++ [[]] }
  | .stop => { r with running := false }
  | .woke => if r.running then { r with rounds := r.rounds ++ [[]] } else r
  | event => { r with rounds := r.rounds.modifyLast (· ++ [event]) }

section Spec

variable (isPrintable : Char → Bool) (loads : String → Except PyException JsonValue)
  (hasAgent : Bool)

/-- The actions `reason` returns at this event. -/
def returnedActions : Event → List AgentAction
  | .observed result =>
    if hasAgent then [] else (result >>= stubReason isPrintable).toOption.getD []
  | .replied response => (response >>= parseActions loads).toOption.getD []
  | _ => []

def decidedIn (round : List Event) : List AgentAction :=
  round.flatMap (returnedActions isPrintable loads hasAgent)

-- A tool call has returned.
def callReturned : Event → Bool
  | .called (.ok _) => true
  | _ => false

/-- The actions up to and with the first tool call after `n` others. -/
def upToCall : Nat → List AgentAction → List AgentAction
  | _, [] => []
  | n, action :: rest =>
    action :: match toolCall action, n with
      | none, n => upToCall n rest
      | some _, 0 => []
      | some _, n + 1 => upToCall n rest

/-- What is done of what is decided in a round: all of it, or as far as the tool call that has not
returned. -/
def takenIn (round : List Event) : List AgentAction :=
  upToCall (round.countP callReturned) (decidedIn isPrintable loads hasAgent round)

/-- The cycles are those of the rounds, one for one. -/
def Follow (cycles : List Cycle) (rounds : List (List Event)) : Prop :=
  cycles.map (fun c ↦ (c.decided, c.taken)) =
    rounds.map fun round ↦
      (decidedIn isPrintable loads hasAgent round, takenIn isPrintable loads hasAgent round)

end Spec

variable {isPrintable : Char → Bool} {loads : String → Except PyException JsonValue}
  {hasAgent : Bool} {s s' : Loop} {event : Event} {events : List Event} {cycle : Cycle}
  {actions rest : List AgentAction} {round : List Event} {past rounds : List (List Event)}

theorem upToCall_of_none {action : AgentAction} (hcall : toolCall action = none) (n : Nat) :
    upToCall n (action :: rest) = action :: upToCall n rest := by simp [upToCall, hcall]

theorem upToCall_zero {action : AgentAction} {call : String × JsonValue}
    (hcall : toolCall action = some call) : upToCall 0 (action :: rest) = [action] := by
  simp [upToCall, hcall]

theorem upToCall_succ {action : AgentAction} {call : String × JsonValue}
    (hcall : toolCall action = some call) (n : Nat) :
    upToCall (n + 1) (action :: rest) = action :: upToCall n rest := by simp [upToCall, hcall]

-- Behind as many tool calls as have returned, the rest begins.
theorem upToCall_append (actions rest : List AgentAction) (n : Nat) :
    upToCall ((actions.filterMap toolCall).length + n) (actions ++ rest) =
      actions ++ upToCall n rest := by
  induction actions with
  | nil => rw [List.filterMap_nil, List.length_nil, Nat.zero_add, List.nil_append, List.nil_append]
  | cons action actions ih =>
    rw [List.cons_append, List.cons_append, ← ih]
    cases hcall : toolCall action with
    | none => rw [List.filterMap_cons_none hcall, upToCall_of_none hcall]
    | some call =>
      rw [List.filterMap_cons_some hcall, List.length_cons, Nat.succ_add, upToCall_succ hcall]

theorem decidedIn_concat (round : List Event) (event : Event) :
    decidedIn isPrintable loads hasAgent (round ++ [event]) =
      decidedIn isPrintable loads hasAgent round ++
        returnedActions isPrintable loads hasAgent event := by
  rw [decidedIn, List.flatMap_append, List.flatMap_singleton]
  rfl

theorem countP_concat (round : List Event) (event : Event) :
    (round ++ [event]).countP callReturned =
      round.countP callReturned + if callReturned event then 1 else 0 := by
  rw [List.countP_append, List.countP_singleton]

theorem Follow.concat (h : Follow isPrintable loads hasAgent s.cycles past)
    (hdecided : cycle.decided = decidedIn isPrintable loads hasAgent round)
    (htaken : cycle.taken = takenIn isPrintable loads hasAgent round) :
    Follow isPrintable loads hasAgent (s.cycles ++ [cycle]) (past ++ [round]) := by
  rw [Follow, List.map_append, List.map_append, h, List.map_singleton, List.map_singleton, hdecided,
    htaken]

/-! ## Where the agent stands in its rounds -/

/-- The cycles that are over follow the rounds before the one at hand, and the cycle at hand, if
there is one, what has happened in it. -/
inductive Tracked (isPrintable : Char → Bool) (loads : String → Except PyException JsonValue)
    (hasAgent : Bool) (rounds : List (List Event)) (s : Loop) : Prop where
  | settled (hphase : s.phase.cycle? = none)
      (hfollow : Follow isPrintable loads hasAgent s.cycles rounds)
  | fresh {past : List (List Event)} {round : List Event}
      (hphase : s.phase = .observing ∨ s.phase = .replying) (hrounds : rounds = past ++ [round])
      (hfollow : Follow isPrintable loads hasAgent s.cycles past)
      (hdecided : decidedIn isPrintable loads hasAgent round = [])
      (hreturned : round.countP callReturned = 0)
  | calling {past : List (List Event)} {round : List Event} {c : Cycle} {rest : List AgentAction}
      (hphase : s.phase = .calling c rest) (hrounds : rounds = past ++ [round])
      (hfollow : Follow isPrintable loads hasAgent s.cycles past)
      (hdecided : c.decided = decidedIn isPrintable loads hasAgent round)
      (hrest : c.decided = c.taken ++ rest)
      (htaken : c.taken = takenIn isPrintable loads hasAgent round)
      (hreturned : (c.taken.filterMap toolCall).length = round.countP callReturned + 1)

-- A round that is over.
theorem Tracked.finish (hfollow : Follow isPrintable loads hasAgent s.cycles past)
    (hdecided : cycle.decided = decidedIn isPrintable loads hasAgent round)
    (htaken : cycle.taken = takenIn isPrintable loads hasAgent round) :
    Tracked isPrintable loads hasAgent (past ++ [round]) (s.finish cycle) :=
  .settled rfl (hfollow.concat hdecided htaken)

-- Carrying out the rest of what was decided leads past its next tool call or to the end.
theorem Tracked.execute (hfollow : Follow isPrintable loads hasAgent s.cycles past)
    (hdecided : cycle.decided = decidedIn isPrintable loads hasAgent round)
    (hrest : cycle.decided = cycle.taken ++ rest)
    (hreturned : (cycle.taken.filterMap toolCall).length = round.countP callReturned) :
    Tracked isPrintable loads hasAgent (past ++ [round]) (s.execute cycle rest) := by
  have hdone : takenIn isPrintable loads hasAgent round = cycle.taken ++ upToCall 0 rest := by
    rw [takenIn, ← hdecided, hrest, ← hreturned]
    exact upToCall_append cycle.taken rest 0
  induction rest generalizing s cycle with
  | nil => exact .finish hfollow hdecided (hdone.trans (List.append_nil _)).symm
  | cons action rest ih =>
    have hrest' : cycle.decided = cycle.taken ++ [action] ++ rest := by
      rw [hrest, List.append_assoc, List.singleton_append]
    rw [Loop.execute]
    cases hcall : toolCall action with
    | none =>
      have hnone : ((cycle.taken ++ [action]).filterMap toolCall).length =
          round.countP callReturned := by
        rw [List.filterMap_append, List.filterMap_cons_none hcall, List.filterMap_nil,
          List.append_nil, hreturned]
      refine ih hfollow hdecided hrest' hnone ?_
      rw [hdone, upToCall_of_none hcall, List.append_assoc, List.singleton_append]
    | some call =>
      refine .calling rfl rfl hfollow hdecided hrest' ?_ ?_
      · rw [hdone, upToCall_zero hcall]
      · rw [List.filterMap_append, List.filterMap_cons_some hcall, List.filterMap_nil,
          List.length_append, hreturned]
        rfl

-- `reason` comes to its end in a round that has only been observed so far.
theorem Tracked.reasoned (hfollow : Follow isPrintable loads hasAgent s.cycles past)
    (hdecided : decidedIn isPrintable loads hasAgent round = [])
    (hreturned : round.countP callReturned = 0)
    {result : Except PyException (List AgentAction)}
    (hresult : returnedActions isPrintable loads hasAgent event = result.toOption.getD [])
    (hevent : callReturned event = false) :
    Tracked isPrintable loads hasAgent (past ++ [round ++ [event]]) (s.reasoned result) := by
  have hdecided' : decidedIn isPrintable loads hasAgent (round ++ [event]) =
      result.toOption.getD [] := by
    rw [decidedIn_concat, hdecided, hresult, List.nil_append]
  have hreturned' : (round ++ [event]).countP callReturned = 0 := by
    rw [countP_concat, hreturned, hevent]
    rfl
  cases result with
  | error e =>
    refine .finish hfollow hdecided'.symm ?_
    rw [takenIn, hdecided']
    rfl
  | ok actions => exact .execute hfollow hdecided'.symm rfl hreturned'.symm

/-! ## One event -/

-- An event that says nothing about what is decided or done.
theorem silent_concat (hevent : returnedActions isPrintable loads hasAgent event = [])
    (hreturned : callReturned event = false) (round : List Event) :
    decidedIn isPrintable loads hasAgent (round ++ [event]) =
        decidedIn isPrintable loads hasAgent round ∧
      takenIn isPrintable loads hasAgent (round ++ [event]) =
        takenIn isPrintable loads hasAgent round := by
  have hdecided : decidedIn isPrintable loads hasAgent (round ++ [event]) =
      decidedIn isPrintable loads hasAgent round := by
    rw [decidedIn_concat, hevent, List.append_nil]
  refine ⟨hdecided, ?_⟩
  rw [takenIn, takenIn, hdecided, countP_concat, hreturned]
  rfl

theorem Follow.silent {cycles : List Cycle} (h : Follow isPrintable loads hasAgent cycles rounds)
    (hevent : returnedActions isPrintable loads hasAgent event = [])
    (hreturned : callReturned event = false) :
    Follow isPrintable loads hasAgent cycles (rounds.modifyLast (· ++ [event])) := by
  obtain rfl | ⟨past, round, rfl⟩ := List.eq_nil_or_concat' rounds
  · exact h
  · obtain ⟨hdecided, htaken⟩ := silent_concat hevent hreturned round
    rw [List.modifyLast_concat]
    rw [Follow, List.map_append, List.map_singleton] at h ⊢
    rw [h, hdecided, htaken]

theorem takenIn_of_fresh (hdecided : decidedIn isPrintable loads hasAgent round = []) :
    takenIn isPrintable loads hasAgent round = [] := by
  rw [takenIn, hdecided, upToCall]

-- The round at hand ends with an exception.
theorem Tracked.cut (h : Tracked isPrintable loads hasAgent rounds s)
    (hcycle : s.phase.cycle? = some cycle)
    (hevent : returnedActions isPrintable loads hasAgent event = [])
    (hreturned : callReturned event = false) :
    Follow isPrintable loads hasAgent (s.cycles ++ [{ cycle with raised := true }])
      (rounds.modifyLast (· ++ [event])) := by
  cases h with
  | settled hphase _ =>
    rw [hphase] at hcycle
    cases hcycle
  | @fresh past round hphase hrounds hfollow hdecided _ =>
    obtain rfl : cycle = {} := by
      obtain hphase | hphase := hphase <;> rw [hphase] at hcycle <;> cases hcycle <;> rfl
    obtain ⟨hdecided', htaken'⟩ := silent_concat hevent hreturned round
    rw [hrounds, List.modifyLast_concat]
    apply hfollow.concat
    · rw [hdecided', hdecided]
    · rw [htaken', takenIn_of_fresh hdecided]
  | @calling past round c rest hphase hrounds hfollow hdecided _ htaken _ =>
    obtain rfl : c = cycle := by
      rw [hphase] at hcycle
      exact Option.some.inj hcycle
    obtain ⟨hdecided', htaken'⟩ := silent_concat hevent hreturned round
    rw [hrounds, List.modifyLast_concat]
    apply hfollow.concat
    · rw [hdecided', ← hdecided]
    · rw [htaken', ← htaken]

theorem Tracked.next (hfollow : Follow isPrintable loads hasAgent s.cycles rounds) :
    Tracked isPrintable loads hasAgent (if s.running then rounds ++ [[]] else rounds) s.next := by
  rw [Loop.next]
  cases s.running with
  | true => exact .fresh (.inl rfl) rfl hfollow rfl rfl
  | false => exact .settled rfl hfollow

-- A round that has only been observed so far, with one more event behind it.
theorem Tracked.fresh_of_phase (h : Tracked isPrintable loads hasAgent rounds s)
    (hphase : s.phase = .observing ∨ s.phase = .replying) :
    ∃ past round, rounds = past ++ [round] ∧ Follow isPrintable loads hasAgent s.cycles past ∧
      decidedIn isPrintable loads hasAgent round = [] ∧ round.countP callReturned = 0 := by
  cases h with
  | settled hsettled _ =>
    obtain hphase | hphase := hphase <;> rw [hphase] at hsettled <;> cases hsettled
  | fresh _ hrounds hfollow hdecided hreturned =>
    exact ⟨_, _, hrounds, hfollow, hdecided, hreturned⟩
  | calling hcalling _ _ _ _ _ _ =>
    obtain hphase | hphase := hphase <;> rw [hphase] at hcalling <;> cases hcalling

theorem Tracked.follow_of_none (h : Tracked isPrintable loads hasAgent rounds s)
    (hcycle : s.phase.cycle? = none) : Follow isPrintable loads hasAgent s.cycles rounds := by
  cases h with
  | settled _ hfollow => exact hfollow
  | fresh hphase _ _ _ _ =>
    obtain hphase | hphase := hphase <;> rw [hphase] at hcycle <;> cases hcycle
  | calling hphase _ _ _ _ _ _ =>
    rw [hphase] at hcycle
    cases hcycle

-- The tool call the agent has waited for returns.
theorem Tracked.returns (h : Tracked isPrintable loads hasAgent rounds s)
    (hphase : s.phase = .calling cycle rest) (text : String) :
    Tracked isPrintable loads hasAgent (rounds.modifyLast (· ++ [.called (.ok text)]))
      (s.execute cycle rest) := by
  cases h with
  | settled hsettled _ =>
    rw [hphase] at hsettled
    cases hsettled
  | fresh hfresh _ _ _ _ =>
    obtain hfresh | hfresh := hfresh <;> rw [hphase] at hfresh <;> cases hfresh
  | @calling past round c rest' hcalling hrounds hfollow hdecided hrest _ hreturned =>
    rw [hphase] at hcalling
    obtain ⟨rfl, rfl⟩ := Phase.calling.inj hcalling
    rw [hrounds, List.modifyLast_concat]
    refine .execute hfollow ?_ hrest ?_
    · rw [decidedIn_concat, ← hdecided]
      exact (List.append_nil _).symm
    · rw [countP_concat, hreturned]
      rfl

/-- An event of the run keeps the agent with its rounds. -/
theorem Tracked.step {r : Rounds} (h : Tracked isPrintable loads hasAgent r.rounds s)
    (hrunning : s.running = r.running)
    (hstep : NATAgent.step isPrintable loads hasAgent s event = some s') :
    Tracked isPrintable loads hasAgent (r.add event).rounds s' := by
  cases step_moves hstep with
  | stops =>
    cases h with
    | settled hphase hfollow => exact .settled hphase hfollow
    | fresh hphase hrounds hfollow hdecided hreturned =>
      exact .fresh hphase hrounds hfollow hdecided hreturned
    | calling hphase hrounds hfollow hdecided hrest htaken hreturned =>
      exact .calling hphase hrounds hfollow hdecided hrest htaken hreturned
  | starts hphase =>
    have hcycle : s.phase.cycle? = none := by
      cases hp : s.phase <;> rw [hp] at hphase <;> first | rfl | cases hphase
    exact Tracked.next (s := { s with running := true }) (h.follow_of_none hcycle)
  | wakes hphase =>
    have hnext := Tracked.next (h.follow_of_none (by rw [hphase]; rfl))
    rw [hrunning] at hnext
    show Tracked isPrintable loads hasAgent (if r.running then _ else r).rounds s.next
    rw [apply_ite Rounds.rounds]
    exact hnext
  | cancels _ =>
    refine .settled rfl ?_
    show Follow isPrintable loads hasAgent (s.cycles ++ _) (r.rounds.modifyLast _)
    cases hcycle : s.phase.cycle? with
    | none =>
      rw [Option.map_none, Option.toList_none, List.append_nil]
      exact (h.follow_of_none hcycle).silent rfl rfl
    | some cycle => exact h.cut hcycle rfl rfl
  | @observationFails e hphase =>
    have hevent : returnedActions isPrintable loads hasAgent (.observed (.error e)) = [] := by
      cases hasAgent <;> rfl
    have hcycle : s.phase.cycle? = some {} := by
      rw [hphase]
      rfl
    exact .settled rfl (h.cut hcycle hevent rfl)
  | @asks obs hphase hagent =>
    obtain ⟨past, round, hrounds, hfollow, hdecided, hreturned⟩ := h.fresh_of_phase (.inl hphase)
    have hevent : returnedActions isPrintable loads hasAgent (.observed (.ok obs)) = [] := by
      rw [returnedActions, if_pos hagent]
    have hadd : (r.add (.observed (.ok obs))).rounds = past ++ [round ++ [.observed (.ok obs)]] := by
      show r.rounds.modifyLast _ = _
      rw [hrounds, List.modifyLast_concat]
    refine .fresh (.inr rfl) hadd hfollow ?_ ?_
    · rw [(silent_concat hevent rfl round).1, hdecided]
    · rw [countP_concat, hreturned]
      rfl
  | @stubReasons obs hphase hagent =>
    obtain ⟨past, round, hrounds, hfollow, hdecided, hreturned⟩ := h.fresh_of_phase (.inl hphase)
    show Tracked isPrintable loads hasAgent (r.rounds.modifyLast _) _
    rw [hrounds, List.modifyLast_concat]
    refine .reasoned hfollow hdecided hreturned ?_ rfl
    rw [returnedActions, hagent]
    rfl
  | replies hphase =>
    obtain ⟨past, round, hrounds, hfollow, hdecided, hreturned⟩ := h.fresh_of_phase (.inr hphase)
    show Tracked isPrintable loads hasAgent (r.rounds.modifyLast _) _
    rw [hrounds, List.modifyLast_concat]
    exact .reasoned hfollow hdecided hreturned rfl rfl
  | callFails hphase => exact .settled rfl (h.cut (by rw [hphase]; rfl) rfl rfl)
  | callReturns hphase => exact h.returns hphase _

/-! ## Whole runs -/

end AsrServe.AgenticFactory.NATAgent
