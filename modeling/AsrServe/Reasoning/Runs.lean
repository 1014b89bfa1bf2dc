import Mathlib.Logic.Basic
import Mathlib.Data.List.Basic
import Mathlib.Data.List.Induction

/-!
# Runs of a labelled machine

A machine is a partial step function `step : σ → ε → Option σ`; `step s e = none` says that the
event `e` cannot happen in `s`.  This file holds the induction rules every run of every machine is
reasoned about with: invariants, facts about each single step of a run, and the transfer of one
such fact into another.
-/

namespace AsrServe.Reasoning

variable {σ ε : Type*}

/-- The state after the events of a list, when each of them can happen in turn. -/
def runFrom (step : σ → ε → Option σ) : σ → List ε → Option σ
  | s, [] => some s
  | s, e :: es => (step s e).bind fun s' ↦ runFrom step s' es

/-- `P s e s'` holds of every step `s -e→ s'` the run takes. -/
def Along (step : σ → ε → Option σ) (P : σ → ε → σ → Prop) : σ → List ε → Prop
  | _, [] => True
  | s, e :: es => ∀ s', step s e = some s' → P s e s' ∧ Along step P s' es

variable {step : σ → ε → Option σ}

@[simp] theorem runFrom_nil (s : σ) : runFrom step s [] = some s := rfl

theorem runFrom_cons (s : σ) (e : ε) (es : List ε) :
    runFrom step s (e :: es) = (step s e).bind fun s' ↦ runFrom step s' es := rfl

theorem runFrom_cons_eq_some {s t : σ} {e : ε} {es : List ε} :
    runFrom step s (e :: es) = some t ↔ ∃ s', step s e = some s' ∧ runFrom step s' es = some t := by
  rw [runFrom_cons, Option.bind_eq_some_iff]

theorem runFrom_append (s : σ) (es fs : List ε) :
    runFrom step s (es ++ fs) = (runFrom step s es).bind fun s' ↦ runFrom step s' fs := by
  induction es generalizing s with
  | nil => rfl
  | cons e es ih =>
    rw [List.cons_append, runFrom_cons, runFrom_cons, Option.bind_assoc]
    exact congrArg _ (funext ih)

theorem runFrom_append_eq_some {s t : σ} {es fs : List ε} :
    runFrom step s (es ++ fs) = some t ↔
      ∃ m, runFrom step s es = some m ∧ runFrom step m fs = some t := by
  rw [runFrom_append, Option.bind_eq_some_iff]

theorem runFrom_singleton {s t : σ} {e : ε} :
    runFrom step s [e] = some t ↔ step s e = some t := by
  simp only [runFrom_cons_eq_some, runFrom_nil, Option.some.injEq, exists_eq_right]

theorem runFrom_concat_eq_some {s t : σ} {es : List ε} {e : ε} :
    runFrom step s (es ++ [e]) = some t ↔
      ∃ m, runFrom step s es = some m ∧ step m e = some t := by
  simp only [runFrom_append_eq_some, runFrom_singleton]

-- A machine that is never stuck runs through every list of events.
theorem run_total (htotal : ∀ s e, ∃ s', step s e = some s') (s : σ) (es : List ε) :
    ∃ t, runFrom step s es = some t := by
  induction es generalizing s with
  | nil => exact ⟨s, rfl⟩
  | cons e es ih =>
    obtain ⟨s', hs⟩ := htotal s e
    obtain ⟨t, ht⟩ := ih s'
    exact ⟨t, runFrom_cons_eq_some.mpr ⟨s', hs, ht⟩⟩

/-! ## Invariants -/

/-- What holds at the start and survives every step holds at the end of every run. -/
theorem run_invariant {I : σ → Prop} (hstep : ∀ s e s', I s → step s e = some s' → I s')
    {s t : σ} {es : List ε} (h0 : I s) (hrun : runFrom step s es = some t) : I t := by
  induction es generalizing s with
  | nil =>
    rw [runFrom_nil, Option.some.injEq] at hrun
    exact hrun ▸ h0
  | cons e es ih =>
    obtain ⟨s', hs, hr⟩ := runFrom_cons_eq_some.mp hrun
    exact ih (hstep s e s' h0 hs) hr

/-- The invariant rule for a fact that also mentions the events consumed so far. -/
theorem run_invariant_history {I : List ε → σ → Prop}
    (hstep : ∀ past s e s', I past s → step s e = some s' → I (past ++ [e]) s')
    {s t : σ} {es : List ε} (h0 : I [] s) (hrun : runFrom step s es = some t) : I es t := by
  induction es using List.reverseRecOn generalizing t with
  | nil =>
    rw [runFrom_nil, Option.some.injEq] at hrun
    exact hrun ▸ h0
  | append_singleton es e ih =>
    obtain ⟨m, hm, hlast⟩ := runFrom_concat_eq_some.mp hrun
    exact hstep es m e t (ih hm) hlast

/-- The invariant rule for a loop that counts from `1` to `n` and may fail: no step that starts
from the invariant does. -/
theorem foldlM_range'_invariant {I : Nat → σ → Prop} {f : σ → Nat → Option σ} {n : Nat} {s : σ}
    (h0 : I 0 s) (hstep : ∀ i < n, ∀ s, I i s → ∃ s', f s (i + 1) = some s' ∧ I (i + 1) s') :
    ∃ t, (List.range' 1 n).foldlM f s = some t ∧ I n t := by
  induction n with
  | zero => exact ⟨s, rfl, h0⟩
  | succ n ih =>
    obtain ⟨m, hm, hi⟩ := ih fun i hlt ↦ hstep i (Nat.lt_succ_of_lt hlt)
    obtain ⟨t, ht, hi'⟩ := hstep n (Nat.lt_succ_self n) m hi
    refine ⟨t, ?_, hi'⟩
    rw [List.range'_1_concat, List.foldlM_append, hm, Option.bind_eq_bind, Option.bind_some,
      List.foldlM_cons, Nat.add_comm 1, ht]
    rfl

/-! ## Facts about each step -/

theorem along_cons {P : σ → ε → σ → Prop} {s : σ} {e : ε} {es : List ε} :
    Along step P s (e :: es) ↔ ∀ s', step s e = some s' → P s e s' ∧ Along step P s' es := Iff.rfl

theorem along_append {P : σ → ε → σ → Prop} {s : σ} {es fs : List ε} :
    Along step P s (es ++ fs) ↔
      Along step P s es ∧ ∀ m, runFrom step s es = some m → Along step P m fs := by
  induction es generalizing s with
  | nil => simp [Along]
  | cons e es ih =>
    simp only [List.cons_append, along_cons, runFrom_cons_eq_some, ih]
    constructor
    · intro h
      refine ⟨fun s' hs ↦ ⟨(h s' hs).1, (h s' hs).2.1⟩, ?_⟩
      rintro m ⟨s', hs, hm⟩
      exact (h s' hs).2.2 m hm
    · rintro ⟨h, hrest⟩ s' hs
      exact ⟨(h s' hs).1, (h s' hs).2, fun m hm ↦ hrest m ⟨s', hs, hm⟩⟩

-- Whether a checkable fact holds along a run can be found out by running it.
instance decidableAlong {P : σ → ε → σ → Prop} [∀ s e s', Decidable (P s e s')] :
    ∀ (s : σ) (es : List ε), Decidable (Along step P s es)
  | _, [] => isTrue trivial
  | s, e :: es =>
    match h : step s e with
    | none => isTrue fun s' hs ↦ by rw [h] at hs; cases hs
    | some s' =>
      have : Decidable (Along step P s' es) := decidableAlong s' es
      decidable_of_iff (P s e s' ∧ Along step P s' es)
        ⟨fun hp t ht ↦ by rw [h] at ht; cases ht; exact hp, fun hp ↦ hp s' h⟩

/-- `Along` read off a run: the fact holds of the step at every split of the event list. -/
theorem along_iff_split {P : σ → ε → σ → Prop} {s : σ} {es : List ε} :
    Along step P s es ↔ ∀ pre e post m m', es = pre ++ e :: post →
      runFrom step s pre = some m → step m e = some m' → P m e m' := by
  induction es generalizing s with
  | nil => simp [Along]
  | cons a es ih =>
    constructor
    · intro h pre e post m m' hes hpre hm
      cases pre with
      | nil =>
        rw [List.nil_append, List.cons.injEq] at hes
        obtain ⟨rfl, rfl⟩ := hes
        rw [runFrom_nil, Option.some.injEq] at hpre
        subst hpre
        exact (h m' hm).1
      | cons b pre =>
        rw [List.cons_append, List.cons.injEq] at hes
        obtain ⟨rfl, hes⟩ := hes
        obtain ⟨s', hs, hr⟩ := runFrom_cons_eq_some.mp hpre
        exact ih.mp (h s' hs).2 pre e post m m' hes hr hm
    · intro h s' hs
      refine ⟨h [] a es s s' rfl rfl hs, ih.mpr fun pre e post m m' hes hpre hm ↦ ?_⟩
      exact h (a :: pre) e post m m' (by rw [hes, List.cons_append])
        (runFrom_cons_eq_some.mpr ⟨s', hs, hpre⟩) hm

/-- A step condition `Q` gives a step property `P` along the whole run when, under an invariant,
one step that meets `Q` satisfies `P` and keeps the invariant. -/
theorem along_of_meets {I : σ → Prop} {P Q : σ → ε → σ → Prop}
    (hstep : ∀ s e s', I s → step s e = some s' → Q s e s' → P s e s' ∧ I s')
    {s : σ} {es : List ε} (h0 : I s) (hQ : Along step Q s es) : Along step P s es := by
  induction es generalizing s with
  | nil => trivial
  | cons e es ih =>
    intro s' hs
    obtain ⟨hq, hrest⟩ := hQ s' hs
    obtain ⟨hp, hi⟩ := hstep s e s' h0 hs hq
    exact ⟨hp, ih hi hrest⟩

/-- The invariant rule for runs whose steps all meet a condition. -/
theorem run_invariant_along {I : σ → Prop} {Q : σ → ε → σ → Prop}
    (hstep : ∀ s e s', I s → Q s e s' → step s e = some s' → I s') {s t : σ} {es : List ε}
    (h0 : I s) (hQ : Along step Q s es) (hrun : runFrom step s es = some t) : I t := by
  induction es generalizing s with
  | nil =>
    rw [runFrom_nil, Option.some.injEq] at hrun
    exact hrun ▸ h0
  | cons e es ih =>
    obtain ⟨s', hs, hr⟩ := runFrom_cons_eq_some.mp hrun
    obtain ⟨hq, hrest⟩ := hQ s' hs
    exact ih (hstep s e s' h0 hq hs) hrest hr

/-- The invariant rule for something that lasts until a step of a certain kind: such a step is found
in the run, with the invariant before it, or the invariant holds at the end. -/
theorem run_invariant_until {I : σ → Prop} {Q E : σ → ε → σ → Prop}
    (hstep : ∀ s e s', I s → Q s e s' → step s e = some s' → E s e s' ∨ I s') {s t : σ} {es : List ε}
    (h0 : I s) (hQ : Along step Q s es) (hrun : runFrom step s es = some t) :
    (∃ pre e post m m', es = pre ++ e :: post ∧ runFrom step s pre = some m ∧
      step m e = some m' ∧ I m ∧ E m e m') ∨ I t := by
  induction es generalizing s with
  | nil =>
    rw [runFrom_nil, Option.some.injEq] at hrun
    exact .inr (hrun ▸ h0)
  | cons e es ih =>
    obtain ⟨s', hs, hr⟩ := runFrom_cons_eq_some.mp hrun
    obtain ⟨hq, hrest⟩ := hQ s' hs
    obtain hend | hkeep := hstep s e s' h0 hq hs
    · exact .inl ⟨[], e, es, s, s', rfl, rfl, hs, h0, hend⟩
    · obtain ⟨pre, a, post, m, m', rfl, hpre, hm⟩ | ht := ih hkeep hrest hr
      · exact .inl ⟨e :: pre, a, post, m, m', rfl, runFrom_cons_eq_some.mpr ⟨s', hs, hpre⟩, hm⟩
      · exact .inr ht

/-- Two step facts hold along exactly the same runs when, under an invariant that the first one
keeps, they agree on every single step. -/
theorem along_congr {I : σ → Prop} {P Q : σ → ε → σ → Prop}
    (hiff : ∀ s e s', I s → step s e = some s' → (P s e s' ↔ Q s e s'))
    (hkeep : ∀ s e s', I s → step s e = some s' → P s e s' → I s')
    {s : σ} {es : List ε} (h0 : I s) : Along step P s es ↔ Along step Q s es := by
  constructor
  · exact along_of_meets (fun s e s' hi hs hp ↦ ⟨(hiff s e s' hi hs).mp hp, hkeep s e s' hi hs hp⟩)
      h0
  · refine along_of_meets (fun s e s' hi hs hq ↦ ?_) h0
    have hp := (hiff s e s' hi hs).mpr hq
    exact ⟨hp, hkeep s e s' hi hs hp⟩

/-- A condition on the events alone is met along a run of a total machine just when every event
meets it. -/
theorem along_event_iff (htotal : ∀ s e, ∃ s', step s e = some s') {Q : ε → Prop} {s : σ}
    {es : List ε} : Along step (fun _ e _ ↦ Q e) s es ↔ ∀ e ∈ es, Q e := by
  induction es generalizing s with
  | nil => simp [Along]
  | cons e es ih =>
    obtain ⟨s', hs⟩ := htotal s e
    rw [List.forall_mem_cons, along_cons]
    constructor
    · intro h
      exact ⟨(h s' hs).1, ih.mp (h s' hs).2⟩
    · rintro ⟨he, hes⟩ t ht
      exact ⟨he, ih.mpr hes⟩

end AsrServe.Reasoning
