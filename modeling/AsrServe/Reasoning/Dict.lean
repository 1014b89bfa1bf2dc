import Mathlib.Algebra.Group.Basic
import Mathlib.Algebra.Ring.Nat
import Mathlib.Data.List.Basic
import Mathlib.Data.List.Nodup

/-!
# Insertion-ordered dictionaries

A finite map that remembers the order in which its keys first arrived: writing a key that is
present changes its value in place, writing a new key appends it, and removing a key closes the
gap.  Each key occurs once, by construction.
-/

namespace AsrServe.Reasoning

/-- A dictionary: its entries in insertion order, each key once. -/
structure Dict (κ α : Type*) where
  entries : List (κ × α)
  nodup : (entries.map Prod.fst).Nodup

namespace Dict

variable {κ α : Type*}

def empty : Dict κ α := ⟨[], List.nodup_nil⟩

def keys (d : Dict κ α) : List κ := d.entries.map Prod.fst

def values (d : Dict κ α) : List α := d.entries.map Prod.snd

instance : Membership κ (Dict κ α) := ⟨fun d k ↦ k ∈ d.keys⟩

@[ext] theorem ext {d e : Dict κ α} (h : d.entries = e.entries) : d = e := by
  cases d; cases e; cases h; rfl

theorem mem_iff {d : Dict κ α} {k : κ} : k ∈ d ↔ k ∈ d.keys := Iff.rfl

variable [DecidableEq κ]

instance (d : Dict κ α) (k : κ) : Decidable (k ∈ d) := inferInstanceAs (Decidable (k ∈ d.keys))

def get? (d : Dict κ α) (k : κ) : Option α := d.entries.lookup k

-- The entries after `d[k] = v`.
def setEntries (k : κ) (v : α) : List (κ × α) → List (κ × α)
  | [] => [(k, v)]
  | (j, w) :: rest => if j = k then (k, v) :: rest else (j, w) :: setEntries k v rest

theorem mem_keys_setEntries {k j : κ} {v : α} {es : List (κ × α)} :
    j ∈ (setEntries k v es).map Prod.fst ↔ j = k ∨ j ∈ es.map Prod.fst := by
  induction es with
  | nil => simp [setEntries]
  | cons p es ih =>
    rw [setEntries]
    split
    · rename_i hp
      simp [hp]
    · rw [List.map_cons, List.mem_cons, ih, List.map_cons, List.mem_cons, or_left_comm]

theorem nodup_setEntries {k : κ} {v : α} {es : List (κ × α)} (h : (es.map Prod.fst).Nodup) :
    ((setEntries k v es).map Prod.fst).Nodup := by
  induction es with
  | nil => simp [setEntries]
  | cons p es ih =>
    rw [List.map_cons, List.nodup_cons] at h
    rw [setEntries]
    split
    · rename_i hp
      rw [List.map_cons, List.nodup_cons]
      exact ⟨hp ▸ h.1, h.2⟩
    · rename_i hp
      rw [List.map_cons, List.nodup_cons, mem_keys_setEntries]
      exact ⟨not_or.mpr ⟨hp, h.1⟩, ih h.2⟩

/-- `d[k] = v`. -/
def set (d : Dict κ α) (k : κ) (v : α) : Dict κ α :=
  ⟨setEntries k v d.entries, nodup_setEntries d.nodup⟩

-- `d.pop(k, None)`, the removed value left aside.
def erase (d : Dict κ α) (k : κ) : Dict κ α :=
  ⟨d.entries.filter (·.1 ≠ k), d.nodup.sublist (List.filter_sublist.map Prod.fst)⟩

/-! ## Lookup -/

@[simp] theorem get?_empty (k : κ) : (empty : Dict κ α).get? k = none := rfl

theorem mem_iff_get?_isSome {d : Dict κ α} {k : κ} : k ∈ d ↔ (d.get? k).isSome := by
  rw [mem_iff, keys, get?, List.lookup_isSome_iff, List.mem_map]
  simp only [beq_iff_eq, @eq_comm κ k]

theorem mem_iff_exists {d : Dict κ α} {k : κ} : k ∈ d ↔ ∃ v, d.get? k = some v := by
  rw [mem_iff_get?_isSome, Option.isSome_iff_exists]

theorem not_mem_iff {d : Dict κ α} {k : κ} : k ∉ d ↔ d.get? k = none := by
  rw [mem_iff_get?_isSome, Bool.not_eq_true, Option.isSome_eq_false_iff, Option.isNone_iff_eq_none]

theorem mem_entries_iff {d : Dict κ α} {k : κ} {v : α} :
    (k, v) ∈ d.entries ↔ d.get? k = some v := by
  obtain ⟨es, hnd⟩ := d
  show (k, v) ∈ es ↔ es.lookup k = some v
  induction es with
  | nil => simp
  | cons p es ih =>
    obtain ⟨j, w⟩ := p
    rw [List.map_cons, List.nodup_cons] at hnd
    rw [List.lookup_cons, List.mem_cons]
    by_cases hk : k = j
    · subst hk
      have hno : (k, v) ∉ es := fun h ↦ hnd.1 (List.mem_map.mpr ⟨_, h, rfl⟩)
      simp [hno, eq_comm]
    · rw [beq_false_of_ne hk, ← ih hnd.2]
      simp [hk]

theorem mem_values_iff {d : Dict κ α} {v : α} : v ∈ d.values ↔ ∃ k, d.get? k = some v := by
  simp only [values, List.mem_map, Prod.exists, exists_eq_right, mem_entries_iff]

@[simp] theorem get?_set_self (d : Dict κ α) (k : κ) (v : α) : (d.set k v).get? k = some v := by
  obtain ⟨es, hnd⟩ := d
  show (setEntries k v es).lookup k = some v
  clear hnd
  induction es with
  | nil => simp [setEntries]
  | cons p es ih =>
    rw [setEntries]
    split
    · exact List.lookup_cons_self
    · rename_i hp
      rw [List.lookup_cons, beq_false_of_ne (Ne.symm hp)]
      exact ih

theorem get?_set_of_ne (d : Dict κ α) {k j : κ} (v : α) (h : j ≠ k) :
    (d.set k v).get? j = d.get? j := by
  obtain ⟨es, hnd⟩ := d
  show (setEntries k v es).lookup j = es.lookup j
  clear hnd
  induction es with
  | nil => simp [setEntries, List.lookup_cons, beq_false_of_ne h]
  | cons p es ih =>
    rw [setEntries]
    split
    · rename_i hp
      rw [List.lookup_cons, List.lookup_cons, beq_false_of_ne h,
        beq_false_of_ne (fun e ↦ h (e.trans hp))]
    · rw [List.lookup_cons, List.lookup_cons, ih]

theorem get?_set (d : Dict κ α) (k j : κ) (v : α) :
    (d.set k v).get? j = if j = k then some v else d.get? j := by
  split
  · rename_i h
    rw [h, get?_set_self]
  · rename_i h
    exact get?_set_of_ne d v h

/-- What stands under a key after `d[k] = v` is `v`, or stood there before. -/
theorem get?_set_cases {d : Dict κ α} {k j : κ} {v w : α} (h : (d.set k v).get? j = some w) :
    j = k ∧ w = v ∨ j ≠ k ∧ d.get? j = some w := by
  rw [get?_set] at h
  by_cases hj : j = k
  · rw [if_pos hj, Option.some.injEq] at h
    exact .inl ⟨hj, h.symm⟩
  · rw [if_neg hj] at h
    exact .inr ⟨hj, h⟩

@[simp] theorem get?_erase_self (d : Dict κ α) (k : κ) : (d.erase k).get? k = none := by
  rw [← not_mem_iff, mem_iff, keys, erase]
  simp

theorem get?_erase_of_ne (d : Dict κ α) {k j : κ} (h : j ≠ k) :
    (d.erase k).get? j = d.get? j := by
  ext v
  rw [← mem_entries_iff, ← mem_entries_iff, erase]
  simp [h]

theorem get?_erase (d : Dict κ α) (k j : κ) :
    (d.erase k).get? j = if j = k then none else d.get? j := by
  split
  · rename_i h
    rw [h, get?_erase_self]
  · rename_i h
    exact get?_erase_of_ne d h

theorem erase_of_not_mem {d : Dict κ α} {k : κ} (h : k ∉ d) : d.erase k = d := by
  apply ext
  rw [erase, List.filter_eq_self]
  intro p hp
  exact decide_eq_true fun hkey ↦ h (hkey ▸ List.mem_map_of_mem hp)

-- Each key has one entry.
omit [DecidableEq κ] in
theorem eq_of_mem_entries {d : Dict κ α} {p q : κ × α} (hp : p ∈ d.entries) (hq : q ∈ d.entries)
    (h : p.1 = q.1) : p = q :=
  List.inj_on_of_nodup_map d.nodup hp hq h

-- Dropping the keys of the entries a test selects leaves the entries it rejects.
theorem filter_key_not_mem (d : Dict κ α) (p : κ × α → Bool) :
    (d.entries.filter fun e ↦ e.1 ∉ (d.entries.filter p).map Prod.fst) =
      d.entries.filter fun e ↦ !p e := by
  refine List.filter_congr fun e he ↦ ?_
  have hiff : e.1 ∈ (d.entries.filter p).map Prod.fst ↔ p e = true := by
    rw [List.mem_map]
    constructor
    · rintro ⟨q, hq, hkey⟩
      obtain ⟨hmem, hp⟩ := List.mem_filter.mp hq
      exact eq_of_mem_entries hmem he hkey ▸ hp
    · exact fun hp ↦ ⟨e, List.mem_filter.mpr ⟨he, hp⟩, rfl⟩
  simp only [hiff, decide_not, Bool.decide_eq_true]

@[simp] theorem mem_set {d : Dict κ α} {k j : κ} {v : α} : j ∈ d.set k v ↔ j = k ∨ j ∈ d :=
  mem_keys_setEntries

-- Writing what is there already changes nothing.
theorem set_eq_self_iff {d : Dict κ α} {k : κ} {v : α} : d.set k v = d ↔ d.get? k = some v := by
  constructor
  · intro h
    rw [← h, get?_set_self]
  · intro h
    apply ext
    obtain ⟨es, hnd⟩ := d
    change es.lookup k = some v at h
    show setEntries k v es = es
    clear hnd
    induction es with
    | nil => cases h
    | cons p es ih =>
      obtain ⟨j, w⟩ := p
      rw [List.lookup_cons] at h
      rw [setEntries]
      by_cases hj : j = k
      · rw [hj, beq_self_eq_true, Option.some.injEq] at h
        rw [if_pos hj, hj, h]
      · rw [beq_false_of_ne (Ne.symm hj)] at h
        rw [if_neg hj, ih h]

-- A new key goes to the end, a known one stays where it is.
theorem keys_set (d : Dict κ α) (k : κ) (v : α) :
    (d.set k v).keys = if k ∈ d then d.keys else d.keys ++ [k] := by
  obtain ⟨es, hnd⟩ := d
  show (setEntries k v es).map Prod.fst =
    if k ∈ es.map Prod.fst then es.map Prod.fst else es.map Prod.fst ++ [k]
  clear hnd
  induction es with
  | nil => rfl
  | cons p es ih =>
    rw [setEntries, List.map_cons]
    by_cases hp : p.1 = k
    · rw [if_pos hp, if_pos (List.mem_cons.mpr (.inl hp.symm)), List.map_cons, hp]
    · rw [if_neg hp, List.map_cons, ih]
      by_cases hmem : k ∈ es.map Prod.fst
      · rw [if_pos hmem, if_pos (List.mem_cons_of_mem _ hmem)]
      · have hnew : k ∉ p.1 :: es.map Prod.fst :=
          List.not_mem_cons_of_ne_of_not_mem (Ne.symm hp) hmem
        rw [if_neg hmem, if_neg hnew, List.cons_append]

theorem keys_erase_sublist (d : Dict κ α) (k : κ) : (d.erase k).keys.Sublist d.keys :=
  List.filter_sublist.map Prod.fst

/-! ## Values filed under a key of their own -/

/-- Every value is filed under what `f` makes of it. -/
def Keyed (f : α → κ) (d : Dict κ α) : Prop := ∀ k v, d.get? k = some v → f v = k

variable {f : α → κ} {d : Dict κ α}

theorem keyed_empty : Keyed f empty := by
  intro k v h
  cases h

-- The keys are then read off the values.
theorem Keyed.map_values (h : Keyed f d) : d.values.map f = d.keys := by
  rw [values, keys, List.map_map]
  exact List.map_congr_left fun p hp ↦ h p.1 p.2 (mem_entries_iff.mp hp)

theorem Keyed.mem_values_iff (h : Keyed f d) {v : α} : v ∈ d.values ↔ d.get? (f v) = some v := by
  rw [Dict.mem_values_iff]
  constructor
  · rintro ⟨k, hk⟩
    rw [h k v hk, hk]
  · exact fun hv ↦ ⟨f v, hv⟩

theorem Keyed.set (h : Keyed f d) (v : α) : Keyed f (d.set (f v) v) := by
  intro k w hk
  rcases get?_set_cases hk with ⟨hkey, rfl⟩ | ⟨-, hold⟩
  · exact hkey.symm
  · exact h k w hold

theorem Keyed.erase (h : Keyed f d) (k : κ) : Keyed f (d.erase k) := by
  intro j w hj
  rw [get?_erase] at hj
  by_cases heq : j = k
  · rw [if_pos heq] at hj
    cases hj
  · rw [if_neg heq] at hj
    exact h j w hj

-- Filing a value puts out whatever was filed under its key.
theorem Keyed.mem_values_set (h : Keyed f d) {v w : α} :
    w ∈ (d.set (f v) v).values ↔ w = v ∨ (w ∈ d.values ∧ f w ≠ f v) := by
  rw [(h.set v).mem_values_iff, h.mem_values_iff, get?_set]
  by_cases heq : f w = f v
  · simp [heq, eq_comm]
  · have hne : w ≠ v := fun hw ↦ heq (hw ▸ rfl)
    simp [heq, hne]

theorem Keyed.mem_values_erase (h : Keyed f d) {k : κ} {w : α} :
    w ∈ (d.erase k).values ↔ w ∈ d.values ∧ f w ≠ k := by
  rw [(h.erase k).mem_values_iff, h.mem_values_iff, get?_erase]
  by_cases heq : f w = k
  · simp [heq]
  · simp [heq]

/-! ## Sums over the values -/

section Sums

variable {M : Type*} [AddCommMonoid M] (f : α → M)

/-- Writing a value exchanges the summand of its key. -/
theorem sum_values_set_elim (d : Dict κ α) (k : κ) (v : α) :
    ((d.set k v).values.map f).sum + (d.get? k).elim 0 f = (d.values.map f).sum + f v := by
  obtain ⟨es, hnd⟩ := d
  show (((setEntries k v es).map Prod.snd).map f).sum + (es.lookup k).elim 0 f =
    ((es.map Prod.snd).map f).sum + f v
  clear hnd
  induction es with
  | nil => simp [setEntries]
  | cons q es ih =>
    obtain ⟨j, w⟩ := q
    rw [List.lookup_cons, setEntries]
    by_cases hj : j = k
    · rw [if_pos hj, hj, beq_self_eq_true]
      simp only [List.map_cons, List.sum_cons, Option.elim_some]
      rw [add_right_comm, add_comm (f v), add_right_comm]
    · rw [if_neg hj, beq_false_of_ne (Ne.symm hj)]
      simp only [List.map_cons, List.sum_cons]
      rw [add_assoc, ih, add_assoc]

end Sums

/-! ## Counting values -/

-- Counting with `0` or `1` for one value.
def tally (p : α → Bool) (v : α) : Nat := if p v then 1 else 0

omit [DecidableEq κ] in
-- A count is a sum.
theorem countP_values (p : α → Bool) (d : Dict κ α) :
    d.values.countP p = (d.values.map (tally p)).sum := by
  induction d.values with
  | nil => rfl
  | cons v vs ih => rw [List.countP_cons, List.map_cons, List.sum_cons, ih, tally, Nat.add_comm]

theorem countP_values_set_elim (p : α → Bool) (d : Dict κ α) (k : κ) (v : α) :
    (d.set k v).values.countP p + (d.get? k).elim 0 (tally p) = d.values.countP p + tally p v := by
  rw [countP_values, countP_values]
  exact sum_values_set_elim (tally p) d k v

theorem countP_values_set_of_not_mem (p : α → Bool) {d : Dict κ α} {k : κ} (v : α) (h : k ∉ d) :
    (d.set k v).values.countP p = d.values.countP p + tally p v := by
  have hcount := countP_values_set_elim p d k v
  rwa [not_mem_iff.mp h] at hcount

-- Overwriting a value exchanges its count.
theorem countP_values_set (p : α → Bool) {d : Dict κ α} {k : κ} {old : α} (v : α)
    (h : d.get? k = some old) :
    (d.set k v).values.countP p + tally p old = d.values.countP p + tally p v := by
  have hcount := countP_values_set_elim p d k v
  rwa [h] at hcount

end Dict

end AsrServe.Reasoning
