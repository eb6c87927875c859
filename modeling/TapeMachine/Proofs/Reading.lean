import Mathlib.Data.List.Nodup
import TapeMachine.Proofs.Assignments

/-!
# TapeMachine.Proofs.Reading

What a settings file gives, said without the order in which it is gone through.

* `Settings.Means`         — what a value means under a key, if it means anything.
* `File.Objects`           — the warning about an assignment that means nothing.
* `Layer.value?`           — the setting that a layer gives under a key.
* `value?_applyAll`, `mem_applyAll_iff` — assignments to different keys can be carried out in any
  order.
* `File.Reading`           — the settings and the warnings of a text by the last assignments to its
  keys.
* `File.applyAll_reading`  — they are what is read, in whatever order the keys are visited.
-/

namespace TapeMachine

namespace Settings

inductive Value where
  | policy (p : Policy)
  | number (n : Nat)
  deriving DecidableEq

def numberKeys : List String := ["capacity", "timeout_ms", "max_steps"]

/-- A numeral that may have underscores anywhere. -/
def Counts (value : String) (n : Nat) : Prop :=
  Text.Numeral.Denotes (value.toList.filter (· ≠ '_')) n

/-- The value means something under the key. -/
inductive Means : String → String → Value → Prop where
  | policy {value : String} {p : Policy} (h : Policy.Named value p) :
      Means "policy" value (.policy p)
  | number {key value : String} {n : Nat} (hkey : key ∈ numberKeys) (h : Counts value n) :
      Means key value (.number n)

end Settings

open Settings

/-- What a layer gives under a key of the settings file. -/
def Layer.value? (layer : Layer) : String → Option Value
  | "policy" => layer.policy.map .policy
  | "capacity" => layer.capacity.map .number
  | "timeout_ms" => layer.timeoutMs.map .number
  | "max_steps" => layer.maxSteps.map .number
  | _ => none

namespace Settings.File

/-- The key that a warning is about. -/
def Warning.key : Warning → String
  | unknownKey key => key
  | unknownPolicy _ => "policy"
  | notANumber key _ => key

/-- The warning about a value that means nothing under its key. -/
inductive Objects : String → String → Warning → Prop where
  | unknownKey {key value : String} (h : key ∉ "policy" :: numberKeys) :
      Objects key value (.unknownKey key)
  | unknownPolicy {value : String} (h : ∀ p, ¬Policy.Named value p) :
      Objects "policy" value (.unknownPolicy (Policy.normalize value))
  | notANumber {key value : String} (hkey : key ∈ numberKeys) (h : ∀ n, ¬Counts value n) :
      Objects key value (.notANumber key value)

/-- The settings and the warnings are those of a text. Each setting is what the last assignment to
its key means, and is left open if there is no assignment or the last one means nothing. There is
one warning for every key the last assignment to which means nothing. -/
structure Reading (text : String) (layer : Layer) (warnings : List Warning) : Prop where
  policy : ∀ p, layer.policy = some p ↔
    ∃ value, LastAssigns text "policy" value ∧ Policy.Named value p
  capacity : ∀ n, layer.capacity = some n ↔
    ∃ value, LastAssigns text "capacity" value ∧ Counts value n
  timeoutMs : ∀ n, layer.timeoutMs = some n ↔
    ∃ value, LastAssigns text "timeout_ms" value ∧ Counts value n
  maxSteps : ∀ n, layer.maxSteps = some n ↔
    ∃ value, LastAssigns text "max_steps" value ∧ Counts value n
  once : (warnings.map Warning.key).Nodup
  mem_iff : ∀ w, w ∈ warnings ↔ ∃ key value, LastAssigns text key value ∧ Objects key value w

variable {text key value : String} {layer : Layer} {a : Assignment} {order : List Assignment}
  {v : Value} {w : Warning}

/-! ## One assignment -/

theorem counts_iff {n : Nat} : Counts value n ↔ number? value = some n :=
  Text.Numeral.value?_eq_some_iff.symm

theorem counts_none_iff : (∀ n, ¬Counts value n) ↔ number? value = none := by
  simp only [counts_iff, Option.eq_none_iff_forall_ne_some, ne_eq]

theorem means_policy_iff :
    Means "policy" value v ↔ ∃ p, Policy.Named value p ∧ .policy p = v := by
  constructor
  · intro h
    cases h with
    | policy h => exact ⟨_, h, rfl⟩
    | number hkey h => exact absurd hkey (by decide)
  · rintro ⟨p, hp, rfl⟩
    exact .policy hp

theorem means_number_iff (hkey : key ∈ numberKeys) :
    Means key value v ↔ ∃ n, Counts value n ∧ .number n = v := by
  constructor
  · intro h
    cases h with
    | policy h => exact absurd hkey (by decide)
    | number hkey h => exact ⟨_, h, rfl⟩
  · rintro ⟨n, hn, rfl⟩
    exact .number hkey hn

theorem objects_policy_iff :
    Objects "policy" value w ↔
      (∀ p, Policy.ofText value ≠ .ok p) ∧ w = .unknownPolicy (Policy.normalize value) := by
  simp only [ne_eq, Policy.ofText_eq_ok_iff]
  constructor
  · intro h
    cases h with
    | unknownKey h => exact absurd (List.mem_cons_self ..) h
    | unknownPolicy h => exact ⟨h, rfl⟩
    | notANumber hkey h => exact absurd hkey (by decide)
  · rintro ⟨h, rfl⟩
    exact .unknownPolicy h

theorem not_mem_keys (hpolicy : key ≠ "policy") (hcapacity : key ≠ "capacity")
    (htimeout : key ≠ "timeout_ms") (hsteps : key ≠ "max_steps") :
    key ∉ "policy" :: numberKeys := by
  simp [numberKeys, hpolicy, hcapacity, htimeout, hsteps]

theorem not_means (h : key ∉ "policy" :: numberKeys) : ¬Means key value v := by
  rw [List.mem_cons, not_or] at h
  intro hmeans
  cases hmeans with
  | policy _ => exact h.1 rfl
  | number hkey _ => exact h.2 hkey

theorem objects_unknown_iff (h : key ∉ "policy" :: numberKeys) :
    Objects key value w ↔ w = .unknownKey key := by
  constructor
  · intro hobjects
    rw [List.mem_cons, not_or] at h
    cases hobjects with
    | unknownKey _ => rfl
    | unknownPolicy _ => exact absurd rfl h.1
    | notANumber hkey _ => exact absurd hkey h.2
  · rintro rfl
    exact .unknownKey h

section

variable (hkey : key ∈ numberKeys)

include hkey

theorem means_iff_readNumber :
    Means key value v ↔ (readNumber ⟨key, value⟩).1.map .number = some v := by
  have hread : (readNumber ⟨key, value⟩).1 = number? value := by
    unfold readNumber
    split <;> simp [*]
  rw [hread, means_number_iff hkey, Option.map_eq_some_iff]
  simp only [counts_iff]

theorem objects_iff_readNumber : Objects key value w ↔ w ∈ (readNumber ⟨key, value⟩).2 := by
  have hread : w ∈ (readNumber ⟨key, value⟩).2 ↔
      number? value = none ∧ w = .notANumber key value := by
    unfold readNumber
    split <;> simp [*]
  rw [hread]
  constructor
  · intro h
    cases h with
    | unknownKey h => exact absurd (List.mem_cons_of_mem _ hkey) h
    | unknownPolicy h => exact absurd hkey (by decide)
    | notANumber _ h => exact ⟨counts_none_iff.1 h, rfl⟩
  · rintro ⟨h, rfl⟩
    exact .notANumber hkey (counts_none_iff.2 h)

end

/-- An assignment to a setting that is still open makes it what the value means. -/
theorem value?_apply_self (h : layer.value? a.key = none) :
    (apply layer a).1.value? a.key = some v ↔ Means a.key a.value v := by
  obtain ⟨key, value⟩ := a
  unfold apply
  dsimp only at h ⊢
  split
  · simp only [means_policy_iff, ← Policy.ofText_eq_ok_iff]
    cases Policy.ofText value with
    | ok p => simp [Layer.value?]
    | error message => simp [h]
  · exact (means_iff_readNumber (by decide)).symm
  · exact (means_iff_readNumber (by decide)).symm
  · exact (means_iff_readNumber (by decide)).symm
  · rename_i hpolicy hcapacity htimeout hsteps
    simp [h, not_means (not_mem_keys hpolicy hcapacity htimeout hsteps)]

theorem value?_apply_of_ne (h : key ≠ a.key) :
    (apply layer a).1.value? key = layer.value? key := by
  obtain ⟨key', value⟩ := a
  unfold apply
  dsimp only at h ⊢
  split
  · cases Policy.ofText value with
    | ok p =>
      unfold Layer.value?
      split <;> first | rfl | exact absurd rfl h
    | error message => rfl
  all_goals
    unfold Layer.value?
    split <;> first | rfl | exact absurd rfl h

theorem mem_apply_iff : w ∈ (apply layer a).2 ↔ Objects a.key a.value w := by
  obtain ⟨key, value⟩ := a
  unfold apply
  dsimp only
  split
  · rw [objects_policy_iff]
    cases Policy.ofText value <;> simp
  · exact (objects_iff_readNumber (by decide)).symm
  · exact (objects_iff_readNumber (by decide)).symm
  · exact (objects_iff_readNumber (by decide)).symm
  · rename_i hpolicy hcapacity htimeout hsteps
    rw [List.mem_singleton,
      objects_unknown_iff (not_mem_keys hpolicy hcapacity htimeout hsteps)]

theorem Objects.key_eq (h : Objects key value w) : w.key = key := by
  cases h <;> rfl

theorem length_apply_le (layer : Layer) (a : Assignment) : (apply layer a).2.length ≤ 1 := by
  have hread : ∀ b : Assignment, (readNumber b).2.length ≤ 1 := fun b => by
    unfold readNumber
    split <;> simp
  unfold apply
  split
  · split <;> simp
  · exact hread a
  · exact hread a
  · exact hread a
  · simp

theorem keys_apply_sublist (layer : Layer) (a : Assignment) :
    ((apply layer a).2.map Warning.key).Sublist [a.key] := by
  have hlength := length_apply_le layer a
  have hmem : ∀ w ∈ (apply layer a).2, w.key = a.key := fun w hw => (mem_apply_iff.1 hw).key_eq
  match h : (apply layer a).2 with
  | [] => exact List.nil_sublist _
  | [w] =>
    rw [h] at hmem
    rw [List.map_singleton, hmem w (List.mem_singleton_self w)]
  | _ :: _ :: _ =>
    rw [h] at hlength
    simp at hlength

/-! ## All assignments -/

theorem value?_applyAll (honce : (order.map (·.key)).Nodup)
    (hopen : ∀ a ∈ order, layer.value? a.key = none) :
    (applyAll layer order).1.value? key = some v ↔
      layer.value? key = some v ∨ ∃ a ∈ order, a.key = key ∧ Means key a.value v := by
  -- By induction on the assignments, which are to different keys: none of them finds a setting that
  -- another one has made.
  induction order generalizing layer with
  | nil => simp [applyAll]
  | cons a rest ih =>
    rw [List.map_cons, List.nodup_cons] at honce
    have hne : ∀ b ∈ rest, b.key ≠ a.key := fun b hb hkey =>
      honce.1 (hkey ▸ List.mem_map_of_mem hb)
    have hrest : ∀ b ∈ rest, (apply layer a).1.value? b.key = none := fun b hb => by
      rw [value?_apply_of_ne (hne b hb)]
      exact hopen b (List.mem_cons_of_mem _ hb)
    have hself := hopen a (List.mem_cons_self ..)
    simp only [applyAll, ih honce.2 hrest, List.mem_cons, or_and_right, exists_or, exists_eq_left]
    by_cases hkey : key = a.key
    · subst hkey
      rw [value?_apply_self hself, hself]
      simp
    · rw [value?_apply_of_ne hkey]
      simp [Ne.symm hkey]

theorem mem_applyAll_iff :
    w ∈ (applyAll layer order).2 ↔ ∃ a ∈ order, Objects a.key a.value w := by
  induction order generalizing layer with
  | nil => simp [applyAll]
  | cons a rest ih => simp only [applyAll, List.mem_append, mem_apply_iff, ih, List.mem_cons,
      or_and_right, exists_or, exists_eq_left]

theorem keys_applyAll_sublist (layer : Layer) (order : List Assignment) :
    ((applyAll layer order).2.map Warning.key).Sublist (order.map (·.key)) := by
  induction order generalizing layer with
  | nil => exact List.Sublist.refl _
  | cons a rest ih =>
    simp only [applyAll, List.map_append, List.map_cons]
    exact (keys_apply_sublist layer a).append (ih _)

/-! ## Readings -/

section

variable (h : Visits (assignments text) order)

include h

theorem mem_visits_iff : a ∈ order ↔ LastAssigns text a.key a.value := by
  rw [h.mem_iff, lastAssigns_iff]

theorem value?_of_visits (key : String) (v : Value) :
    (applyAll .empty order).1.value? key = some v ↔
      ∃ value, LastAssigns text key value ∧ Means key value v := by
  have hopen : ∀ key, Layer.empty.value? key = none := fun key => by
    unfold Layer.value?
    split <;> rfl
  rw [value?_applyAll h.once fun a _ => hopen a.key, hopen]
  constructor
  · rintro (hnone | ⟨a, ha, rfl, hmeans⟩)
    · cases hnone
    · exact ⟨a.value, (mem_visits_iff h).1 ha, hmeans⟩
  · rintro ⟨value, hlast, hmeans⟩
    exact .inr ⟨⟨key, value⟩, (mem_visits_iff h).2 hlast, rfl, hmeans⟩

theorem reading_of_visits :
    Reading text (applyAll .empty order).1 (applyAll .empty order).2 := by
  have hnumber : ∀ key ∈ numberKeys, ∀ m : Option Nat,
      (applyAll .empty order).1.value? key = m.map .number →
        ∀ n, m = some n ↔ ∃ value, LastAssigns text key value ∧ Counts value n := by
    intro key hkey m hm n
    have hvalue := value?_of_visits h key (.number n)
    simpa [hm, means_number_iff hkey] using hvalue
  refine ⟨fun p => ?_, hnumber "capacity" (by decide) _ rfl, hnumber "timeout_ms" (by decide) _ rfl,
    hnumber "max_steps" (by decide) _ rfl, (keys_applyAll_sublist .empty order).nodup h.once,
    fun w => ?_⟩
  · have hvalue := value?_of_visits h "policy" (.policy p)
    simpa [Layer.value?, means_policy_iff] using hvalue
  · rw [mem_applyAll_iff]
    constructor
    · rintro ⟨a, ha, hw⟩
      exact ⟨a.key, a.value, (mem_visits_iff h).1 ha, hw⟩
    · rintro ⟨key, value, hlast, hw⟩
      exact ⟨⟨key, value⟩, (mem_visits_iff h).2 hlast, hw⟩

end

theorem value?_read :
    (read text).1.value? key = some v ↔
      ∃ value, LastAssigns text key value ∧ Means key value v :=
  value?_of_visits (visits_finals (assignments text)) key v

/-- A text has one reading, but for the order of the warnings. -/
theorem Reading.unique {layer' : Layer} {warnings warnings' : List Warning}
    (h : Reading text layer warnings) (h' : Reading text layer' warnings') :
    layer = layer' ∧ warnings.Perm warnings' := by
  constructor
  · obtain ⟨policy, capacity, timeoutMs, maxSteps⟩ := layer
    obtain ⟨policy', capacity', timeoutMs', maxSteps'⟩ := layer'
    obtain rfl : policy = policy' := Option.ext fun p => (h.policy p).trans (h'.policy p).symm
    obtain rfl : capacity = capacity' :=
      Option.ext fun n => (h.capacity n).trans (h'.capacity n).symm
    obtain rfl : timeoutMs = timeoutMs' :=
      Option.ext fun n => (h.timeoutMs n).trans (h'.timeoutMs n).symm
    obtain rfl : maxSteps = maxSteps' :=
      Option.ext fun n => (h.maxSteps n).trans (h'.maxSteps n).symm
    rfl
  · have hnodup := List.Nodup.of_map Warning.key h.once
    have hnodup' := List.Nodup.of_map Warning.key h'.once
    exact (List.perm_ext_iff_of_nodup hnodup hnodup').2 fun w =>
      (h.mem_iff w).trans (h'.mem_iff w).symm

/-- The entries of the map are visited in some order when a text is read. Whatever the order is, the
settings and warnings are those of the reading of the text, and there are no other readings. -/
theorem applyAll_reading (text : String) :
    (∃ order, Visits (assignments text) order ∧ read text = applyAll .empty order) ∧
      ∀ order, Visits (assignments text) order → ∀ layer warnings,
        Reading text layer warnings ↔
          layer = (applyAll .empty order).1 ∧ warnings.Perm (applyAll .empty order).2 := by
  refine ⟨⟨_, visits_finals _, rfl⟩, fun order h layer warnings => ⟨fun hr => ?_, ?_⟩⟩
  · exact hr.unique (reading_of_visits h)
  · rintro ⟨rfl, hperm⟩
    have hr := reading_of_visits h
    exact { hr with
      once := ((hperm.map _).nodup_iff).2 hr.once
      mem_iff := fun w => hperm.mem_iff.trans (hr.mem_iff w) }

/-- Ends of lines with a carriage return, a section in between, a key that is assigned twice, quotes
with a blank inside, and more than one `=`. The last assignment of a capacity is no number, so that
the first one does not count either. The entries are visited backwards. -/
theorem applyAll_reading_backwards :
    let text := "[interpreter]\r\ncapacity = 5\r\ncapacity = \" 5\"\r\n[colors]\r\n" ++
      "capacity = 7\n[ interpreter ]\n policy=Strict \ncolour = \"a=b\"\n"
    let order : List Assignment := [⟨"colour", "a=b"⟩, ⟨"policy", "Strict"⟩, ⟨"capacity", " 5"⟩]
    Visits (assignments text) order ∧
      Reading text ⟨some .strict, none, none, none⟩
        [.notANumber "capacity" " 5", .unknownKey "colour"] := by
  intro text order
  have hfinals : finals (assignments text) = order.reverse := by decide +kernel
  have hvisits : Visits (assignments text) order := by
    have h := visits_finals (assignments text)
    rw [hfinals] at h
    exact h.perm (List.reverse_perm order)
  refine ⟨hvisits, ((applyAll_reading text).2 order hvisits _ _).2 ⟨?_, ?_⟩⟩
  · decide +kernel
  · decide +kernel

end Settings.File

end TapeMachine
