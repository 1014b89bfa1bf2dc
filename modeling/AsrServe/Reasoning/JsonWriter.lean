import AsrServe.Reasoning.JsonText

/-!
# Writing JSON texts

Strings, integers and objects, as they are read back.  The characters that are written as `\u`
escapes although they need not be are a parameter.
-/

namespace AsrServe.Reasoning.JsonText

section Writing

variable (marked : Char → Bool)

-- `c` is below `0x10000`.
def unicodeEscape (c : Char) : List Char :=
  ['\\', 'u', Nat.digitChar (c.toNat / 4096), Nat.digitChar (c.toNat / 256 % 16),
    Nat.digitChar (c.toNat / 16 % 16), Nat.digitChar (c.toNat % 16)]

def escape (c : Char) : List Char :=
  if c = '"' ∨ c = '\\' then ['\\', c]
  else if c = Char.ofNat 8 then ['\\', 'b']
  else if c = Char.ofNat 12 then ['\\', 'f']
  else if c = '\n' then ['\\', 'n']
  else if c = '\r' then ['\\', 'r']
  else if c = '\t' then ['\\', 't']
  else if c.toNat < 0x20 ∨ marked c = true then unicodeEscape c
  else [c]

def writeString (value : List Char) : List Char := '"' :: (value.flatMap (escape marked) ++ ['"'])

def writeInt (n : Int) : List Char := (toString n).toList

def writeBool (b : Bool) : List Char := if b then ['t', 'r', 'u', 'e'] else ['f', 'a', 'l', 's', 'e']

def separated : List (List Char) → List Char
  | [] => []
  | [text] => text
  | text :: texts => text ++ ',' :: separated texts

/-- The object with these members; the values are given as they are written. -/
def writeObject (members : List (List Char × List Char)) : List Char :=
  '{' :: (separated (members.map fun m ↦ writeString marked m.1 ++ ':' :: m.2) ++ ['}'])

end Writing

/-! ## Strings -/

theorem hexValue_digitChar {n : Nat} (h : n < 16) : hexValue (Nat.digitChar n) = some n := by
  revert n
  decide

theorem hex4_digits {n : Nat} (h : n < 0x10000) :
    hex4 (Nat.digitChar (n / 4096)) (Nat.digitChar (n / 256 % 16)) (Nat.digitChar (n / 16 % 16))
      (Nat.digitChar (n % 16)) = some n := by
  rw [hex4, hexValue_digitChar (by omega), hexValue_digitChar (by omega),
    hexValue_digitChar (by omega), hexValue_digitChar (by omega)]
  show some _ = _
  rw [Option.some_inj]
  omega

-- A character is no half of a pair.
theorem runeOf_toNat (c : Char) : runeOf c.toNat = .char c := by
  rw [runeOf, if_neg, Char.ofNat_toNat]
  intro h
  have hvalid := c.valid
  simp only [UInt32.isValidChar, Nat.isValidChar] at hvalid
  have hval : c.toNat = c.val.toNat := rfl
  omega

theorem readRunes_escape {marked : Char → Bool}
    (hmarked : ∀ c, marked c = true → c.toNat < 0x10000) (c : Char) {s rest : List Char}
    {runes : List Rune} (h : readRunes s = some (runes, rest)) :
    readRunes (escape marked c ++ s) = some (.char c :: runes, rest) := by
  have hshort {e : Char} (hc : escaped e = some c) :
      readRunes ('\\' :: e :: s) = some (.char c :: runes, rest) := by
    have hne : e ≠ 'u' := by
      rintro rfl
      cases hc
    rw [readRunes, hc, h]
    · rfl
    · exact fun _ _ _ _ _ hu ↦ absurd hu hne
  rw [escape]
  split
  · rename_i hc
    rcases hc with rfl | rfl
    · exact hshort rfl
    · exact hshort rfl
  rename_i hquote
  split
  · subst_vars; exact hshort rfl
  split
  · subst_vars; exact hshort rfl
  split
  · subst_vars; exact hshort rfl
  split
  · subst_vars; exact hshort rfl
  split
  · subst_vars; exact hshort rfl
  split
  · rename_i hc
    have hlt : c.toNat < 0x10000 := hc.elim (by omega) (hmarked c)
    show readRunes ('\\' :: 'u' :: _ :: _ :: _ :: _ :: s) = _
    rw [readRunes, hex4_digits hlt, h]
    show some (runeOf c.toNat :: runes, rest) = _
    rw [runeOf_toNat]
  · rename_i hc
    rw [not_or] at hquote hc
    show readRunes (c :: s) = _
    rw [readRunes, if_neg (not_or.mpr ⟨hc.1, hquote.2⟩), h]
    · rfl
    · exact hquote.1
    · exact fun _ _ _ _ _ heq ↦ absurd heq hquote.2
    · exact fun _ _ heq ↦ absurd heq hquote.2

theorem join_char (value : List Char) : join none (value.map .char) = value := by
  induction value with
  | nil => rfl
  | cons c value ih =>
    rw [List.map_cons, join, ih]
    rfl

theorem readString_writeString {marked : Char → Bool}
    (hmarked : ∀ c, marked c = true → c.toNat < 0x10000) (value t : List Char) :
    readString (value.flatMap (escape marked) ++ '"' :: t) = some (value, t) := by
  have hrunes : readRunes (value.flatMap (escape marked) ++ '"' :: t) =
      some (value.map .char, t) := by
    induction value with
    | nil => rfl
    | cons c value ih =>
      rw [List.flatMap_cons, List.append_assoc, readRunes_escape hmarked c ih]
      rfl
  rw [readString, hrunes, Option.map_some, join_char]

/-! ## Integers -/

theorem isDigit_toDigits (n : Nat) : ∀ c ∈ Nat.toDigits 10 n, c.isDigit = true :=
  fun _ hc ↦ Nat.isDigit_of_mem_toDigits (by decide) (by decide) hc

-- Only zero begins with a zero.
theorem head_toDigits {n : Nat} (h : 0 < n) : (Nat.toDigits 10 n).head? ≠ some '0' := by
  have hdigit : ∀ d < 10, 0 < d → Nat.digitChar d ≠ '0' := by decide
  induction n using Nat.strongRecOn with
  | ind n ih =>
    by_cases hlt : n < 10
    · rw [Nat.toDigits_of_lt_base hlt]
      exact fun heq ↦ hdigit n hlt h (Option.some.inj heq)
    · have hpos : 0 < n / 10 := by omega
      rw [Nat.toDigits_of_base_le (by decide) (by omega),
        List.head?_append]
      cases hhead : (Nat.toDigits 10 (n / 10)).head? with
      | none => exact absurd (List.head?_eq_none_iff.mp hhead) Nat.toDigits_ne_nil
      | some c =>
        have hc := ih (n / 10) (by omega) hpos
        rw [hhead] at hc
        exact hc

theorem readUnsigned_toDigits (n : Nat) :
    readUnsigned (Nat.toDigits 10 n) = some (Nat.toDigits 10 n, []) := by
  have hint : readIntPart (Nat.toDigits 10 n) = some (Nat.toDigits 10 n, []) := by
    have hdigits : readDigits (Nat.toDigits 10 n) = some (Nat.toDigits 10 n, []) :=
      readDigits_eq_some.mpr ⟨(List.append_nil _).symm, Nat.toDigits_ne_nil, isDigit_toDigits n,
        fun _ hc ↦ by cases hc⟩
    rcases Nat.eq_zero_or_pos n with rfl | hpos
    · decide
    · have hhead := head_toDigits hpos
      cases hn : Nat.toDigits 10 n with
      | nil => exact absurd hn Nat.toDigits_ne_nil
      | cons c cs =>
        rw [hn] at hhead hdigits
        rw [readIntPart, if_neg (fun hc ↦ hhead (congrArg some hc))]
        exact hdigits
  rw [readUnsigned, hint]
  show some (_ ++ [] ++ [], []) = _
  rw [List.append_nil, List.append_nil]

theorem writeInt_ofNat (n : Nat) : writeInt (n : Int) = Nat.toDigits 10 n := Nat.toList_repr

theorem writeInt_negSucc (n : Nat) : writeInt (.negSucc n) = '-' :: Nat.toDigits 10 (n + 1) := by
  show ("-" ++ (n + 1).repr).toList = _
  rw [String.toList_append, Nat.toList_repr]
  rfl

theorem readNumber_writeInt (n : Int) : readNumber (writeInt n) = some (writeInt n, []) := by
  cases n with
  | ofNat n =>
    have hdigits := readUnsigned_toDigits n
    rw [Int.ofNat_eq_natCast, writeInt_ofNat]
    cases hn : Nat.toDigits 10 n with
    | nil => exact absurd hn Nat.toDigits_ne_nil
    | cons c cs =>
      have hc := isDigit_toDigits n c (hn ▸ List.mem_cons_self)
      rw [hn] at hdigits
      rw [readNumber, if_neg]
      · exact hdigits
      · rintro rfl
        cases hc
  | negSucc n =>
    rw [writeInt_negSucc, readNumber, if_pos rfl, readUnsigned_toDigits]
    rfl

/-! ## Values -/

variable {depth : Nat}

theorem readValue_scalar {c : Char} {s : List Char} {v : Json × List Char}
    (hblank : isBlank c = false) (hc : c ≠ '[' ∧ c ≠ '{') (h : readScalar (c :: s) = some v) :
    readValue depth (c :: s) = some v := by
  have hskip : skip (c :: s) = c :: s := by
    rw [skip, List.dropWhile_cons, hblank]
    rfl
  rw [readValue, hskip]
  dsimp only
  rw [if_neg hc.1, if_neg hc.2]
  exact h

theorem readValue_writeBool (b : Bool) : readValue depth (writeBool b) = some (.bool b, []) := by
  cases b with
  | false => exact readValue_scalar rfl (by decide) rfl
  | true => exact readValue_scalar rfl (by decide) rfl

theorem writeInt_eq_cons (n : Int) :
    ∃ c cs, writeInt n = c :: cs ∧ (c.isDigit = true ∨ c = '-') := by
  cases n with
  | ofNat n =>
    rw [Int.ofNat_eq_natCast, writeInt_ofNat]
    cases hn : Nat.toDigits 10 n with
    | nil => exact absurd hn Nat.toDigits_ne_nil
    | cons c cs => exact ⟨c, cs, rfl, .inl (isDigit_toDigits n c (hn ▸ List.mem_cons_self))⟩
  | negSucc n => exact ⟨'-', _, writeInt_negSucc n, .inr rfl⟩

theorem readValue_writeInt (n : Int) :
    readValue depth (writeInt n) = some (.number (writeInt n), []) := by
  have hnumber := readNumber_writeInt n
  obtain ⟨c, cs, heq, hc⟩ := writeInt_eq_cons n
  have hother {d : Char} (hd : d.isDigit = false ∧ d ≠ '-') : c ≠ d := by
    rintro rfl
    exact hc.elim (fun h ↦ absurd (hd.1 ▸ h) Bool.false_ne_true) hd.2
  have hblank : isBlank c = false := by
    rw [isBlank, decide_eq_false (hother (by decide)), decide_eq_false (hother (by decide)),
      decide_eq_false (hother (by decide)), decide_eq_false (hother (by decide))]
    rfl
  rw [heq] at hnumber ⊢
  refine readValue_scalar hblank ⟨hother (by decide), hother (by decide)⟩ ?_
  rw [readScalar, if_neg (hother (by decide)), if_neg (hother (by decide)),
    if_neg (hother (by decide)), if_neg (hother (by decide)), hnumber]
  rfl

theorem readValue_writeString {marked : Char → Bool}
    (hmarked : ∀ c, marked c = true → c.toNat < 0x10000) (value : List Char) :
    readValue depth (writeString marked value) = some (.string value, []) := by
  refine readValue_scalar rfl (by decide) ?_
  show (readString (value.flatMap (escape marked) ++ ['"'])).map _ = _
  rw [readString_writeString hmarked]
  rfl

/-! ## Objects -/

section Items

variable {α : Type} {item : List Char → Option (α × List Char)} {close : Char}

theorem skip_cons {c : Char} (h : isBlank c = false) (s : List Char) : skip (c :: s) = c :: s := by
  rw [skip, List.dropWhile_cons, h]
  rfl

theorem readItems_last {s t : List Char} {x : α} (hclose : isBlank close = false)
    (h : item s = some (x, close :: t)) (n : Nat) :
    readItems item close (n + 1) s = some ([x], t) := by
  rw [readItems, h]
  dsimp only
  rw [skip_cons hclose]
  exact if_pos rfl

theorem readItems_more {s t : List Char} {x : α} (hclose : close ≠ ',')
    (h : item s = some (x, ',' :: t)) (n : Nat) :
    readItems item close (n + 1) s =
      (readItems item close n t).map fun r ↦ (x :: r.1, r.2) := by
  rw [readItems, h]
  dsimp only
  rw [skip_cons rfl]
  dsimp only
  rw [if_neg hclose.symm, if_pos rfl]

/-- Items that are read as far as they go are read one after the other. -/
theorem readItems_separated (hclose : isBlank close = false ∧ close ≠ ',')
    {ps : List (List Char × α)} (hne : ps ≠ [])
    (hitem : ∀ p ∈ ps, ∀ c t, c = ',' ∨ c = close → item (p.1 ++ c :: t) = some (p.2, c :: t))
    {n : Nat} (hn : ps.length ≤ n) (t : List Char) :
    readItems item close n (separated (ps.map Prod.fst) ++ close :: t) =
      some (ps.map Prod.snd, t) := by
  induction ps generalizing n with
  | nil => exact absurd rfl hne
  | cons p ps ih =>
    obtain ⟨n, rfl⟩ : ∃ k, n = k + 1 := ⟨n - 1, by rw [List.length_cons] at hn; omega⟩
    obtain ⟨hp, hps⟩ := List.forall_mem_cons.mp hitem
    cases ps with
    | nil => exact readItems_last hclose.1 (hp close t (.inr rfl)) n
    | cons q ps =>
      have htext : separated ((p :: q :: ps).map Prod.fst) ++ close :: t =
          p.1 ++ ',' :: (separated ((q :: ps).map Prod.fst) ++ close :: t) :=
        List.append_assoc _ _ _
      rw [htext, readItems_more hclose.2 (hp ',' _ (.inl rfl)),
        ih (List.cons_ne_nil _ _) hps (Nat.le_of_succ_le_succ hn)]
      rfl

end Items

theorem length_separated (texts : List (List Char)) :
    texts.length ≤ (separated texts).length + 1 := by
  induction texts with
  | nil => exact Nat.zero_le _
  | cons text texts ih =>
    cases texts with
    | nil => exact Nat.le_add_left _ _
    | cons text' texts =>
      have hlength : (separated (text :: text' :: texts)).length =
          text.length + ((separated (text' :: texts)).length + 1) := List.length_append
      rw [hlength, List.length_cons]
      omega

theorem readMember_writeString {marked : Char → Bool}
    (hmarked : ∀ c, marked c = true → c.toNat < 0x10000) {text : List Char} {v : Json}
    (hvalue : readValue depth text = some (v, [])) (name : List Char) {t : List Char}
    (ht : Stops t) :
    readMember (readValue depth) (writeString marked name ++ ':' :: text ++ t) =
      some ((name, v), t) := by
  have htext : writeString marked name ++ ':' :: text ++ t =
      '"' :: (name.flatMap (escape marked) ++ '"' :: ':' :: (text ++ t)) := by
    simp [writeString]
  rw [htext]
  refine readMember_eq_some.mpr ⟨_, ':' :: (text ++ t), text ++ t, rfl,
    readString_writeString hmarked name _, rfl, ?_⟩
  exact readValue_append hvalue fun _ _ _ ↦ ht

/-- An object is read as it is written, if its values are. -/
theorem readValue_writeObject {marked : Char → Bool}
    (hmarked : ∀ c, marked c = true → c.toNat < 0x10000) {ms : List (List Char × List Char × Json)}
    (hvalue : ∀ m ∈ ms, readValue depth m.2.1 = some (m.2.2, [])) :
    readValue (depth + 1) (writeObject marked (ms.map fun m ↦ (m.1, m.2.1))) =
      some (.object (ms.map fun m ↦ (m.1, m.2.2)), []) := by
  -- each member as a text and as what is read
  let item (m : List Char × List Char × Json) : List Char × List Char × Json :=
    (writeString marked m.1 ++ ':' :: m.2.1, (m.1, m.2.2))
  have hbody : readBody (readMember (readValue depth)) '}'
      (separated ((ms.map item).map Prod.fst) ++ ['}']) = some ((ms.map item).map Prod.snd, []) := by
    cases ms with
    | nil => rfl
    | cons m ms =>
      have hitem : ∀ p ∈ (m :: ms).map item, ∀ c t, c = ',' ∨ c = '}' →
          readMember (readValue depth) (p.1 ++ c :: t) = some (p.2, c :: t) := by
        intro p hp c t hc
        obtain ⟨m, hm, rfl⟩ := List.mem_map.mp hp
        refine readMember_writeString hmarked (hvalue m hm) m.1 (stops_cons ?_)
        rcases hc with rfl | rfl <;> decide
      obtain ⟨s, hs⟩ : ∃ s, separated (((m :: ms).map item).map Prod.fst) ++ ['}'] = '"' :: s := by
        cases ms with
        | nil => exact ⟨_, rfl⟩
        | cons m' ms => exact ⟨_, rfl⟩
      have hlength := length_separated (((m :: ms).map item).map Prod.fst)
      have hcount := congrArg List.length hs
      rw [List.length_append, List.length_singleton, List.length_cons] at hcount
      rw [hs, readBody, skip_cons rfl]
      dsimp only
      rw [if_neg (by decide), ← hs]
      refine readItems_separated (by decide) (List.cons_ne_nil _ _) hitem ?_ []
      rw [List.length_map] at hlength
      exact le_of_le_of_eq hlength hcount
  have hfst : (ms.map item).map Prod.fst =
      (ms.map fun m ↦ (m.1, m.2.1)).map fun m ↦ writeString marked m.1 ++ ':' :: m.2 := by
    rw [List.map_map, List.map_map]
    rfl
  have hsnd : (ms.map item).map Prod.snd = ms.map fun m ↦ (m.1, m.2.2) := List.map_map
  rw [hfst, hsnd] at hbody
  rw [writeObject, readValue, skip_cons rfl]
  dsimp only
  rw [if_neg (by decide), if_pos rfl, hbody]
  rfl

end AsrServe.Reasoning.JsonText
