import Mathlib.Order.Bounds.Basic
import Mathlib.Order.Lattice.Nat

/-!
# Edit scripts

Sequences turned into each other by inserting, deleting and substituting single elements, and the
recurrence that computes the length of a shortest such script.  Scripts edit anywhere and in any
order; alignments read both sequences once, from the front.  The two have the same lengths.
-/

namespace AsrServe.Reasoning

variable {α : Type*}

/-- One element inserted, deleted or substituted. -/
inductive Edit : List α → List α → Prop where
  | insert (l r : List α) (x : α) : Edit (l ++ r) (l ++ x :: r)
  | delete (l r : List α) (x : α) : Edit (l ++ x :: r) (l ++ r)
  | substitute (l r : List α) (x y : α) : Edit (l ++ x :: r) (l ++ y :: r)

/-- A sequence of `n` edits. -/
inductive EditScript : Nat → List α → List α → Prop where
  | refl (a : List α) : EditScript 0 a a
  | snoc {n : Nat} {a b c : List α} : EditScript n a b → Edit b c → EditScript (n + 1) a c

/-- A walk through both sequences with `n` steps that are no match. -/
inductive Alignment : Nat → List α → List α → Prop where
  | nil : Alignment 0 [] []
  | keep (x : α) {n : Nat} {a b : List α} : Alignment n a b → Alignment n (x :: a) (x :: b)
  | substitute (x y : α) {n : Nat} {a b : List α} :
      Alignment n a b → Alignment (n + 1) (x :: a) (y :: b)
  | delete (x : α) {n : Nat} {a b : List α} : Alignment n a b → Alignment (n + 1) (x :: a) b
  | insert (y : α) {n : Nat} {a b : List α} : Alignment n a b → Alignment (n + 1) a (y :: b)

/-! ## Scripts -/

theorem Edit.cons (x : α) {a b : List α} (h : Edit a b) : Edit (x :: a) (x :: b) := by
  cases h with
  | insert l r y => exact .insert (x :: l) r y
  | delete l r y => exact .delete (x :: l) r y
  | substitute l r y z => exact .substitute (x :: l) r y z

theorem EditScript.cons (x : α) {n : Nat} {a b : List α} (h : EditScript n a b) :
    EditScript n (x :: a) (x :: b) := by
  induction h with
  | refl a => exact .refl (x :: a)
  | snoc _ hedit ih => exact ih.snoc (hedit.cons x)

theorem Edit.reverse {a b : List α} (h : Edit a b) : Edit a.reverse b.reverse := by
  cases h with
  | insert l r x =>
    simpa using Edit.insert r.reverse l.reverse x
  | delete l r x =>
    simpa using Edit.delete r.reverse l.reverse x
  | substitute l r x y =>
    simpa using Edit.substitute r.reverse l.reverse x y

theorem EditScript.reverse {n : Nat} {a b : List α} (h : EditScript n a b) :
    EditScript n a.reverse b.reverse := by
  induction h with
  | refl a => exact .refl a.reverse
  | snoc _ hedit ih => exact ih.snoc hedit.reverse

theorem editScript_reverse_iff {n : Nat} {a b : List α} :
    EditScript n a.reverse b.reverse ↔ EditScript n a b := by
  constructor
  · intro h
    have hback := h.reverse
    rwa [List.reverse_reverse, List.reverse_reverse] at hback
  · exact EditScript.reverse

/-! ## Scripts and alignments -/

/-- The edits of an alignment, made one after the other from the end. -/
theorem Alignment.editScript {n : Nat} {a b : List α} (h : Alignment n a b) : EditScript n a b := by
  induction h with
  | nil => exact .refl []
  | keep x _ ih => exact ih.cons x
  | @substitute x y n a b _ ih => exact (ih.cons x).snoc (.substitute [] b x y)
  | @delete x n a b _ ih => exact (ih.cons x).snoc (.delete [] b x)
  | @insert y n a b _ ih => exact ih.snoc (.insert [] b y)

theorem alignment_nil_left : ∀ b : List α, Alignment b.length [] b
  | [] => .nil
  | y :: b => (alignment_nil_left b).insert y

theorem alignment_nil_right : ∀ a : List α, Alignment a.length a []
  | [] => .nil
  | x :: a => (alignment_nil_right a).delete x

theorem Alignment.refl : ∀ a : List α, Alignment 0 a a
  | [] => .nil
  | x :: a => (Alignment.refl a).keep x

/-- `t` is at most one step further away than `s`, whatever it is measured from. -/
def OneFurther (s t : List α) : Prop :=
  ∀ n a, Alignment n a s → ∃ k ≤ n + 1, Alignment k a t

theorem OneFurther.cons {s t : List α} (h : OneFurther s t) (y : α) :
    OneFurther (y :: s) (y :: t) := by
  intro n a halign
  generalize hys : y :: s = ys at halign
  induction halign with
  | nil => cases hys
  | keep x halign _ =>
    cases hys
    obtain ⟨k, hk, hrest⟩ := h _ _ halign
    exact ⟨k, hk, hrest.keep y⟩
  | substitute x z halign _ =>
    cases hys
    obtain ⟨k, hk, hrest⟩ := h _ _ halign
    exact ⟨k + 1, by omega, hrest.substitute x y⟩
  | delete x _ ih =>
    obtain ⟨k, hk, hrest⟩ := ih hys
    exact ⟨k + 1, by omega, hrest.delete x⟩
  | insert z halign _ =>
    cases hys
    obtain ⟨k, hk, hrest⟩ := h _ _ halign
    exact ⟨k + 1, by omega, hrest.insert y⟩

theorem OneFurther.append {s t : List α} (h : OneFurther s t) (l : List α) :
    OneFurther (l ++ s) (l ++ t) := by
  induction l with
  | nil => exact h
  | cons y l ih => exact ih.cons y

theorem oneFurther_insert (r : List α) (x : α) : OneFurther r (x :: r) :=
  fun n _ halign ↦ ⟨n + 1, le_rfl, halign.insert x⟩

-- The head goes: what was matched with it costs one operation against the new list.
theorem OneFurther.of_tail {r t : List α} (h : OneFurther r t)
    (hmatched : ∀ n a z, Alignment n a r → Alignment (n + 1) (z :: a) t) (x : α) :
    OneFurther (x :: r) t := by
  intro n a halign
  generalize hxs : x :: r = xs at halign
  induction halign with
  | nil => cases hxs
  | @keep z n a b halign _ =>
    cases hxs
    exact ⟨n + 1, le_rfl, hmatched n a x halign⟩
  | @substitute z w n a b halign _ =>
    cases hxs
    exact ⟨n + 1, by omega, hmatched n a z halign⟩
  | delete z _ ih =>
    obtain ⟨k, hk, hrest⟩ := ih hxs
    exact ⟨k + 1, by omega, hrest.delete z⟩
  | @insert z n a b halign _ =>
    cases hxs
    obtain ⟨k, hk, hrest⟩ := h n a halign
    exact ⟨k, by omega, hrest⟩

theorem oneFurther_delete (r : List α) (x : α) : OneFurther (x :: r) r := by
  apply OneFurther.of_tail
  · exact fun n a halign ↦ ⟨n, by omega, halign⟩
  · exact fun n a z halign ↦ halign.delete z

theorem oneFurther_substitute (r : List α) (x y : α) : OneFurther (x :: r) (y :: r) := by
  apply (oneFurther_insert r y).of_tail
  exact fun n a z halign ↦ halign.substitute z y

theorem Edit.oneFurther {s t : List α} (h : Edit s t) : OneFurther s t := by
  cases h with
  | insert l r x => exact (oneFurther_insert r x).append l
  | delete l r x => exact (oneFurther_delete r x).append l
  | substitute l r x y => exact (oneFurther_substitute r x y).append l

/-- Every script can be straightened into an alignment that is no longer. -/
theorem EditScript.alignment {n : Nat} {a b : List α} (h : EditScript n a b) :
    ∃ k ≤ n, Alignment k a b := by
  induction h with
  | refl a => exact ⟨0, le_rfl, .refl a⟩
  | snoc _ hedit ih =>
    obtain ⟨k, hk, halign⟩ := ih
    obtain ⟨j, hj, hlast⟩ := hedit.oneFurther k _ halign
    exact ⟨j, by omega, hlast⟩

/-! ## The recurrence -/

variable [DecidableEq α]

/-- The recurrence of the edit distance; on a match it takes the diagonal without looking at the
other two. -/
def distance : List α → List α → Nat
  | [], b => b.length
  | a, [] => a.length
  | x :: a, y :: b =>
    if x = y then distance a b
    else 1 + min (min (distance a (y :: b)) (distance (x :: a) b)) (distance a b)
termination_by a b => a.length + b.length

@[simp] theorem distance_nil_left (b : List α) : distance [] b = b.length := by rw [distance]

@[simp] theorem distance_nil_right (a : List α) : distance a [] = a.length := by
  cases a with
  | nil => rw [distance]
  | cons x a => rw [distance]; exact fun h ↦ nomatch h

theorem distance_cons_cons (x y : α) (a b : List α) :
    distance (x :: a) (y :: b) =
      if x = y then distance a b
      else 1 + min (min (distance a (y :: b)) (distance (x :: a) b)) (distance a b) := by
  rw [distance]

theorem distance_comm (a b : List α) : distance a b = distance b a := by
  induction a generalizing b with
  | nil => rw [distance_nil_left, distance_nil_right]
  | cons x a iha =>
    induction b with
    | nil => rw [distance_nil_left, distance_nil_right]
    | cons y b ihb =>
      rw [distance_cons_cons, distance_cons_cons, iha b, iha (y :: b), ihb]
      by_cases h : x = y
      · rw [if_pos h, if_pos h.symm]
      · rw [if_neg h, if_neg (Ne.symm h)]
        omega

/-- An alignment of the length the recurrence gives. -/
theorem alignment_distance (a b : List α) : Alignment (distance a b) a b := by
  induction a generalizing b with
  | nil =>
    rw [distance_nil_left]
    exact alignment_nil_left b
  | cons x a iha =>
    induction b with
    | nil =>
      rw [distance_nil_right]
      exact alignment_nil_right (x :: a)
    | cons y b ihb =>
      rw [distance_cons_cons]
      by_cases heq : x = y
      · subst heq
        rw [if_pos rfl]
        exact (iha b).keep x
      · rw [if_neg heq, Nat.add_comm 1]
        -- one step for each of the three values the minimum can be
        rcases min_choice (min (distance a (y :: b)) (distance (x :: a) b)) (distance a b)
          with h | h
        · rcases min_choice (distance a (y :: b)) (distance (x :: a) b) with h' | h'
          · rw [h, h']
            exact (iha (y :: b)).delete x
          · rw [h, h']
            exact ihb.insert y
        · rw [h]
          exact (iha b).substitute x y

-- Dropping an element of the target, given that nothing shorter gains more than one by it.
theorem distance_cons_left_le {a : List α}
    (h : ∀ (y : α) (b : List α), distance a b ≤ distance a (y :: b) + 1) (x : α) (b : List α) :
    distance (x :: a) b ≤ distance a b + 1 := by
  cases b with
  | nil => simp
  | cons y b =>
    rw [distance_cons_cons]
    by_cases heq : x = y
    · rw [if_pos heq]
      exact h y b
    · rw [if_neg heq]
      omega

theorem distance_le_cons_right (a : List α) :
    ∀ (y : α) (b : List α), distance a b ≤ distance a (y :: b) + 1 := by
  induction a with
  | nil =>
    intro y b
    rw [distance_nil_left, distance_nil_left, List.length_cons]
    omega
  | cons x a ih =>
    intro y b
    have hdelete := distance_cons_left_le ih x b
    have hdrop := ih y b
    rw [distance_cons_cons]
    by_cases heq : x = y
    · rw [if_pos heq]
      exact hdelete
    · rw [if_neg heq]
      omega

theorem distance_delete_le (x : α) (a b : List α) : distance (x :: a) b ≤ distance a b + 1 :=
  distance_cons_left_le (distance_le_cons_right a) x b

theorem distance_insert_le (y : α) (a b : List α) : distance a (y :: b) ≤ distance a b + 1 := by
  rw [distance_comm a (y :: b), distance_comm a b]
  exact distance_delete_le y b a

/-- No alignment is shorter than the recurrence says: the diagonal taken on a match is no loss. -/
theorem Alignment.distance_le {n : Nat} {a b : List α} (h : Alignment n a b) :
    distance a b ≤ n := by
  induction h with
  | nil => simp
  | keep x _ ih => rwa [distance_cons_cons, if_pos rfl]
  | substitute x y _ ih =>
    rw [distance_cons_cons]
    by_cases heq : x = y
    · rw [if_pos heq]
      omega
    · rw [if_neg heq]
      omega
  | @delete x n a b _ ih =>
    have hdelete := distance_delete_le x a b
    omega
  | @insert y n a b _ ih =>
    have hinsert := distance_insert_le y a b
    omega

/-- The recurrence computes the length of a shortest script. -/
theorem isLeast_distance (a b : List α) : IsLeast {n | EditScript n a b} (distance a b) := by
  constructor
  · exact (alignment_distance a b).editScript
  · intro n hscript
    obtain ⟨k, hk, halign⟩ := hscript.alignment
    exact halign.distance_le.trans hk

-- Scripts can be read in both directions, so the recurrence can start at either end.
theorem distance_reverse (a b : List α) : distance a.reverse b.reverse = distance a b := by
  have h := isLeast_distance a.reverse b.reverse
  simp only [editScript_reverse_iff] at h
  exact h.unique (isLeast_distance a b)

@[simp] theorem distance_eq_zero_iff {a b : List α} : distance a b = 0 ↔ a = b := by
  constructor
  · intro h
    have hscript : EditScript (distance a b) a b := (isLeast_distance a b).1
    rw [h] at hscript
    cases hscript
    rfl
  · intro h
    rw [h]
    exact Nat.le_zero.mp (Alignment.refl b).distance_le

end AsrServe.Reasoning
