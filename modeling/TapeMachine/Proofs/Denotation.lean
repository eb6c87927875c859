import Mathlib.Data.Nat.Digits.Defs
import Mathlib.Data.List.DropRight
import Mathlib.Data.List.Forall2
import TapeMachine.Settings.File

/-!
# TapeMachine.Proofs.Denotation

What texts denote, said without the functions that read them.

* `Text.Trims`            — what is left of a text without the white space around it.
* `Text.Numeral.Denotes`  — the numerals of a number: a `+`, which may be missing, and ASCII digits.
* `Policy.Named`          — the texts that name a policy, in capitals or not.
* `trims_iff`, `value?_eq_some_iff`, `ofText_eq_ok_iff` — the functions accept these texts and no
  others.
-/

namespace TapeMachine

namespace Text

/-- A text is its core with white space around it, and there is none at the ends of the core. -/
structure Trims (text core : List Char) : Prop where
  around : ∃ left right, text = left ++ core ++ right ∧
    (∀ c ∈ left, isBlank c) ∧ ∀ c ∈ right, isBlank c
  first : ∀ c ∈ core.head?, ¬isBlank c
  last : ∀ c ∈ core.getLast?, ¬isBlank c

variable {text core : List Char} {n : Nat}

theorem trims_trim (text : List Char) : Trims text (trim text) := by
  have hleft : text.takeWhile isBlank ++ trimLeft text = text := List.takeWhile_append_dropWhile
  have hright : trim text ++ (trimLeft text).rtakeWhile isBlank = trimLeft text :=
    List.rdropWhile_append_rtakeWhile
  refine ⟨⟨text.takeWhile isBlank, (trimLeft text).rtakeWhile isBlank, ?_,
    fun c => List.mem_takeWhile_imp, fun c => List.mem_rtakeWhile_imp⟩, fun c hc => ?_,
    fun c hc => ?_⟩
  · rw [List.append_assoc, hright, hleft]
  · have hhead : (trimLeft text).head? = some c := by
      rw [← hright, List.head?_append, hc]
      rfl
    have hfirst := List.head?_dropWhile_not isBlank text
    rw [show (text.dropWhile isBlank).head? = some c from hhead] at hfirst
    simp [hfirst]
  · obtain ⟨hne, rfl⟩ := List.mem_getLast?_eq_getLast hc
    exact List.rdropWhile_last_not isBlank (trimLeft text) hne

theorem trimRight_append {right : List Char} (hright : ∀ c ∈ right, isBlank c)
    (hlast : ∀ c ∈ core.getLast?, ¬isBlank c) : trimRight (core ++ right) = core := by
  have hcore : core.rdropWhile isBlank = core :=
    List.rdropWhile_eq_self_iff.2 fun hne => hlast _ (List.getLast?_eq_getLast_of_ne_nil hne)
  have hreverse : ∀ c ∈ right.reverse, isBlank c := fun c hc => hright c (List.mem_reverse.1 hc)
  rw [trimRight, List.reverse_append, List.dropWhile_append_of_pos hreverse]
  exact hcore

theorem trims_iff : Trims text core ↔ trim text = core := by
  constructor
  · rintro ⟨⟨left, right, rfl, hleft, hright⟩, hfirst, hlast⟩
    rw [trim, trimLeft, List.append_assoc, List.dropWhile_append_of_pos hleft]
    cases core with
    | nil =>
      rw [List.nil_append, List.dropWhile_eq_nil_iff.2 hright]
      rfl
    | cons c rest =>
      rw [List.cons_append, List.dropWhile_cons_of_neg (hfirst c rfl)]
      exact trimRight_append hright hlast
  · rintro rfl
    exact trims_trim text

/-! ## Numerals -/

namespace Numeral

/-- The number that digits stand for, the last one of which is that of the ones. -/
def valueOf (digits : List Char) : Nat :=
  Nat.ofDigits 10 (digits.reverse.map fun c => c.toNat - '0'.toNat)

/-- ASCII digits, at least one, of a number that fits into a word. -/
structure Spells (digits : List Char) (n : Nat) : Prop where
  nonempty : digits ≠ []
  decimal : ∀ c ∈ digits, c.isDigit
  value : valueOf digits = n
  fits : n < 2 ^ 64

/-- The text is a numeral of the number: its digits, with a `+` in front or without it. -/
def Denotes (text : List Char) (n : Nat) : Prop :=
  ∃ digits, (text = digits ∨ text = '+' :: digits) ∧ Spells digits n

theorem valueOf_cons (c : Char) (rest : List Char) :
    valueOf (c :: rest) = (c.toNat - '0'.toNat) * 10 ^ rest.length + valueOf rest := by
  rw [valueOf, List.reverse_cons, List.map_append, Nat.ofDigits_append, List.length_map,
    List.length_reverse, List.map_singleton, Nat.ofDigits_singleton, valueOf, Nat.mul_comm,
    Nat.add_comm]

theorem digit?_eq (c : Char) :
    digit? c = if c.isDigit then some (c.toNat - '0'.toNat) else none := by
  have hsame : ('0' ≤ c ∧ c ≤ '9') ↔ c.isDigit = true := by
    rw [Char.isDigit, Bool.and_eq_true, decide_eq_true_iff, decide_eq_true_iff]
    rfl
  simp only [digit?, hsame]

theorem readDigits_eq_ok_iff {value : Nat} (hvalue : value < wordSize) (digits : List Char) :
    readDigits value digits = .ok n ↔
      (∀ c ∈ digits, c.isDigit) ∧ value * 10 ^ digits.length + valueOf digits = n ∧
        n < wordSize := by
  -- By induction on the digits. The number does not get smaller on the way, so it is too large as
  -- soon as the value of the digits that have been read is.
  induction digits generalizing value with
  | nil =>
    simp only [readDigits, Except.ok.injEq, List.not_mem_nil, List.length_nil]
    simp [valueOf]
    rintro rfl
    exact hvalue
  | cons c rest ih =>
    rw [readDigits, digit?_eq, List.forall_mem_cons, List.length_cons, valueOf_cons]
    cases hc : c.isDigit with
    | false => simp
    | true =>
      have hsum : value * 10 ^ (rest.length + 1) +
          ((c.toNat - '0'.toNat) * 10 ^ rest.length + valueOf rest) =
            (10 * value + (c.toNat - '0'.toNat)) * 10 ^ rest.length + valueOf rest := by
        ring
      rw [hsum]
      simp only [if_true, true_and]
      split
      · rename_i hfits
        exact ih hfits
      · rename_i hlarge
        have hpos : 0 < 10 ^ rest.length := Nat.pow_pos (by decide)
        have hle := Nat.le_mul_of_pos_right (10 * value + (c.toNat - '0'.toNat)) hpos
        constructor
        · intro h
          cases h
        · rintro ⟨-, rfl, hfits⟩
          omega

theorem readUnsigned_eq_ok_iff (digits : List Char) :
    readUnsigned digits = .ok n ↔ Spells digits n := by
  have hword : wordSize = 2 ^ 64 := by norm_num [wordSize]
  cases digits with
  | nil =>
    constructor
    · intro h
      cases h
    · intro h
      exact absurd rfl h.nonempty
  | cons c rest =>
    rw [readUnsigned, readDigits_eq_ok_iff (by decide), Nat.zero_mul, Nat.zero_add, hword]
    · exact ⟨fun ⟨hdigits, hvalue, hfits⟩ => ⟨List.cons_ne_nil _ _, hdigits, hvalue, hfits⟩,
        fun ⟨_, hdigits, hvalue, hfits⟩ => ⟨hdigits, hvalue, hfits⟩⟩
    · simp

theorem value?_eq_some_iff : value? text = some n ↔ Denotes text n := by
  have htoOption : ∀ r : Except Fault Nat, r.toOption = some n ↔ r = .ok n := fun r => by
    cases r <;> simp [Except.toOption]
  rw [value?, htoOption, read.eq_def]
  split
  · constructor
    · intro h
      cases h
    · rintro ⟨digits, rfl | h, hspells⟩
      · exact absurd rfl hspells.nonempty
      · cases h
  · rename_i digits
    rw [readUnsigned_eq_ok_iff]
    constructor
    · exact fun h => ⟨digits, .inr rfl, h⟩
    · rintro ⟨digits, rfl | h, hspells⟩
      · exact absurd (hspells.decimal '+' (List.mem_cons_self ..)) (by decide)
      · cases h
        exact hspells
  · rename_i hplus
    rw [readUnsigned_eq_ok_iff]
    constructor
    · exact fun h => ⟨text, .inl rfl, h⟩
    · rintro ⟨digits, rfl | h, hspells⟩
      · exact hspells
      · exact absurd h (hplus digits)

end Numeral

end Text

namespace Policy

/-- The character is the small letter, or else the capital that belongs to it. -/
def Cased (c small : Char) : Prop := c = small ∨ (c.isUpper ∧ small.toNat = c.toNat + 32)

/-- The text is the name of the policy with white space around it, in small letters or capitals. -/
def Named (text : String) (p : Policy) : Prop :=
  ∃ word, Text.Trims text.toList word ∧ List.Forall₂ Cased word p.name.toList

theorem cased_iff {c small : Char} (h : ¬small.isUpper) : Cased c small ↔ c.toLower = small := by
  by_cases hc : c.isUpper
  · have hrange : c.val ≥ 'A'.val ∧ c.val ≤ 'Z'.val := of_decide_eq_true hc
    have hle : c.val.toNat ≤ 90 := UInt32.le_iff_toNat_le.1 hrange.2
    have hne : c ≠ small := by
      rintro rfl
      exact h hc
    have hlower : c.toLower.toNat = c.toNat + 32 := by
      have hval : c.toLower.val = c.val + ('a'.val - 'A'.val) := congrArg Char.val (dif_pos hrange)
      have hgap : ('a'.val - 'A'.val).toNat = 32 := rfl
      have hadd := UInt32.toNat_add c.val ('a'.val - 'A'.val)
      rw [hgap, Nat.mod_eq_of_lt (by omega), ← hval] at hadd
      exact hadd
    rw [Cased, ← Char.toNat_inj (c := c.toLower), hlower]
    simp [hne, hc, eq_comm]
  · have hlower : c.toLower = c := dif_neg fun hrange => hc (decide_eq_true hrange)
    rw [Cased, hlower]
    simp [hc]

theorem forall₂_cased_iff {word small : List Char} (h : ∀ c ∈ small, ¬c.isUpper) :
    List.Forall₂ Cased word small ↔ word.map Char.toLower = small := by
  induction small generalizing word with
  | nil => rw [List.forall₂_nil_right_iff, List.map_eq_nil_iff]
  | cons d small ih =>
    rw [List.forall_mem_cons] at h
    cases word with
    | nil => simp [List.forall₂_nil_left_iff]
    | cons c word =>
      rw [List.forall₂_cons, cased_iff h.1, ih h.2, List.map_cons, List.cons.injEq]

theorem named_iff {text : String} {p : Policy} : Named text p ↔ normalize text = p.name := by
  have hall : p.name.toList.all (!·.isUpper) = true := by cases p <;> rfl
  have hsmall : ∀ c ∈ p.name.toList, ¬c.isUpper := by simpa using hall
  rw [normalize, ← String.toList_inj, String.toList_ofList, ← forall₂_cased_iff hsmall]
  constructor
  · rintro ⟨word, hword, hcased⟩
    rwa [Text.trims_iff.1 hword]
  · exact fun h => ⟨_, Text.trims_trim _, h⟩

theorem ofText_eq_ok_iff {text : String} {p : Policy} : ofText text = .ok p ↔ Named text p := by
  rw [named_iff]
  simp only [ofText]
  split
  · rename_i hwrap
    rw [hwrap]
    cases p <;> simp [name]
  · rename_i hwrap
    split
    · rename_i hstrict
      rw [hstrict]
      cases p <;> simp [name]
    · rename_i hstrict
      cases p <;> simp [hwrap, hstrict]

end Policy

end TapeMachine
