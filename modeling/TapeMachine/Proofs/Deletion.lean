import Mathlib.Data.List.InsertIdx
import TapeMachine.Proofs.Reading

/-!
# TapeMachine.Proofs.Deletion

What becomes of the settings when a line is taken out of their file.

* `File.withoutLine`   — the text without one of its lines.
* `assignsAt_withoutLine`, `lastAssigns_withoutLine` — the other assignments stay, and one of them
  may become the last one to its key.
* `File.Hides`         — the line is the last one to assign to its key, and an earlier one does so
  too.
* `File.read_withoutLine_iff` — without an assignment that means nothing the settings are the same,
  unless it hides one that means something.
-/

namespace TapeMachine

/-- Layers that give the same under every key are the same. -/
theorem Layer.ext_value? {layer layer' : Layer}
    (h : ∀ key, layer.value? key = layer'.value? key) : layer = layer' := by
  obtain ⟨policy, capacity, timeoutMs, maxSteps⟩ := layer
  obtain ⟨policy', capacity', timeoutMs', maxSteps'⟩ := layer'
  have hnumber : Function.Injective (Option.map Settings.Value.number) :=
    Option.map_injective fun _ _ h => by cases h; rfl
  have hpolicy : Function.Injective (Option.map Settings.Value.policy) :=
    Option.map_injective fun _ _ h => by cases h; rfl
  obtain rfl : policy = policy' := hpolicy (h "policy")
  obtain rfl : capacity = capacity' := hnumber (h "capacity")
  obtain rfl : timeoutMs = timeoutMs' := hnumber (h "timeout_ms")
  obtain rfl : maxSteps = maxSteps' := hnumber (h "max_steps")
  rfl

namespace Settings.File

/-- The text without its line `n`. -/
def withoutLine (n : Nat) (text : String) : String :=
  String.ofList (['\n'].intercalate ((text.toList.splitOn '\n').eraseIdx n))

/-- Where the line is found that stands at `m` when the line `n` has been taken out. -/
def behind (n m : Nat) : Nat := if m < n then m else m + 1

/-- Of the lines but `n`, one assigns the value to the key, and no later one assigns to it. -/
def LastApart (text : String) (n : Nat) (key value : String) : Prop :=
  ∃ m ≠ n, AssignsAt text m key value ∧
    ∀ k value', m < k → k ≠ n → ¬AssignsAt text k key value'

/-- The line `n` is the last one to assign to the key, and the value is what would be assigned last
without it. -/
structure Hides (text : String) (n : Nat) (key value : String) : Prop where
  last : ∀ m value', n < m → ¬AssignsAt text m key value'
  apart : LastApart text n key value

variable {text key value key' value' : String} {ls : List Line} {l : Line} {inside : Bool}
  {m n : Nat} {a : Assignment} {v : Value}

/-! ## The other lines -/

theorem behind_ne (n m : Nat) : behind n m ≠ n := by
  unfold behind
  split <;> omega

theorem behind_lt_behind_iff {k : Nat} : behind n m < behind n k ↔ m < k := by
  unfold behind
  split <;> split <;> omega

theorem exists_behind (h : m ≠ n) : ∃ k, behind n k = m := by
  by_cases hlt : m < n
  · exact ⟨m, if_pos hlt⟩
  · refine ⟨m - 1, ?_⟩
    rw [behind, if_neg (by omega)]
    omega

theorem assigns_eraseIdx (hl : ls[n]? = some l) (hstay : ∀ inside, l.leads inside = inside) :
    Assigns inside (ls.eraseIdx n) m a ↔ Assigns inside ls (behind n m) a := by
  -- By induction on the lines, up to the one that is taken out.
  induction ls generalizing inside n m with
  | nil => simp at hl
  | cons first ls ih =>
    cases n with
    | zero =>
      cases hl
      rw [List.eraseIdx_cons_zero, behind, if_neg (Nat.not_lt_zero m), assigns_succ, hstay]
    | succ n =>
      rw [List.eraseIdx_cons_succ]
      cases m with
      | zero =>
        rw [behind, if_pos (Nat.succ_pos n), assigns_zero, assigns_zero]
      | succ m =>
        have hbehind : behind (n + 1) (m + 1) = behind n m + 1 := by
          unfold behind
          split <;> split <;> omega
        rw [hbehind, assigns_succ, assigns_succ, ih hl]

theorem newline_not_mem_splitOn (text : List Char) :
    ∀ line ∈ text.splitOn '\n', '\n' ∉ line := by
  induction text with
  | nil => simp
  | cons c rest ih =>
    rw [List.splitOn_cons_eq_if_modifyHead]
    split
    · rw [List.forall_mem_cons]
      exact ⟨List.not_mem_nil, ih⟩
    · rename_i hc
      have hne : '\n' ≠ c := fun h => hc (beq_iff_eq.2 h.symm)
      cases hrest : rest.splitOn '\n' with
      | nil => simp
      | cons first later =>
        rw [hrest, List.forall_mem_cons] at ih
        rw [List.modifyHead_cons, List.forall_mem_cons, List.mem_cons, not_or]
        exact ⟨⟨hne, ih.1⟩, ih.2⟩

theorem splitOn_withoutLine (h : AssignsAt text n key value) :
    (withoutLine n text).toList.splitOn '\n' = (text.toList.splitOn '\n').eraseIdx n := by
  -- What is taken out is not the only line, as there is one before it that opens its section.
  obtain ⟨line, hline, -⟩ := h.line
  obtain ⟨m, hm, -⟩ := h.inside
  obtain ⟨hlt, -⟩ := List.getElem?_eq_some_iff.1 hline
  have hlength := List.length_eraseIdx_add_one hlt
  rw [withoutLine, String.toList_ofList]
  refine List.splitOn_intercalate '\n' (fun line hmem => ?_) fun hnil => ?_
  · exact newline_not_mem_splitOn _ line (List.mem_of_mem_eraseIdx hmem)
  · rw [hnil, List.length_nil] at hlength
    omega

theorem assignsAt_withoutLine (h : AssignsAt text n key value) :
    AssignsAt (withoutLine n text) m key' value' ↔ AssignsAt text (behind n m) key' value' := by
  have hsaid : said (withoutLine n text) = (said text).eraseIdx n := by
    rw [said, said, lines_eq_splitOn, lines_eq_splitOn, splitOn_withoutLine h, List.eraseIdx_map]
  have hline := saysAt_iff.1 h.line
  rw [assignsAt_iff, assignsAt_iff, hsaid]
  exact assigns_eraseIdx hline fun _ => rfl

theorem lastAssigns_withoutLine (h : AssignsAt text n key value) :
    LastAssigns (withoutLine n text) key' value' ↔ LastApart text n key' value' := by
  simp only [LastAssigns, LastApart, assignsAt_withoutLine h]
  constructor
  · rintro ⟨m, hm, hlater⟩
    refine ⟨behind n m, behind_ne n m, hm, fun k value hlt hk => ?_⟩
    obtain ⟨j, rfl⟩ := exists_behind hk
    exact hlater j value (behind_lt_behind_iff.1 hlt)
  · rintro ⟨m, hne, hm, hlater⟩
    obtain ⟨j, rfl⟩ := exists_behind hne
    exact ⟨j, hm, fun k value hlt => hlater _ value (behind_lt_behind_iff.2 hlt) (behind_ne n k)⟩

theorem AssignsAt.unique (h : AssignsAt text n key value) (h' : AssignsAt text n key' value') :
    key = key' ∧ value = value' := by
  have hsame := (saysAt_iff.1 h.line).symm.trans (saysAt_iff.1 h'.line)
  rw [Option.some.injEq, Line.assigns.injEq] at hsame
  exact ⟨String.toList_inj.1 hsame.1, String.toList_inj.1 hsame.2⟩

/-- A line that is not the last one to assign to a key makes no difference to the last one. -/
theorem lastApart_iff (hn : ∀ given, AssignsAt text n key' given →
    ∃ m later, n < m ∧ AssignsAt text m key' later) :
    LastApart text n key' value' ↔ LastAssigns text key' value' := by
  constructor
  · rintro ⟨m, hne, hm, hlater⟩
    refine ⟨m, hm, fun k given hlt hk => ?_⟩
    by_cases hkn : k = n
    · subst hkn
      obtain ⟨j, later, hkj, hj⟩ := hn given hk
      exact hlater j later (Nat.lt_trans hlt hkj) (Nat.ne_of_gt hkj) hj
    · exact hlater k given hlt hkn hk
  · rintro ⟨m, hm, hlater⟩
    refine ⟨m, ?_, hm, fun k given hlt _ => hlater k given hlt⟩
    rintro rfl
    obtain ⟨j, later, hmj, hj⟩ := hn _ hm
    exact hlater j later hmj hj

/-! ## The settings -/

theorem value?_withoutLine (h : AssignsAt text n key value) :
    (read (withoutLine n text)).1.value? key' = some v ↔
      ∃ value', LastApart text n key' value' ∧ Means key' value' v := by
  simp only [value?_read, lastAssigns_withoutLine h]

theorem value?_withoutLine_eq (h : AssignsAt text n key value)
    (hn : ∀ given, AssignsAt text n key' given →
      ∃ m later, n < m ∧ AssignsAt text m key' later) :
    (read (withoutLine n text)).1.value? key' = (read text).1.value? key' := by
  refine Option.ext fun v => ?_
  simp only [value?_withoutLine h, value?_read, lastApart_iff hn]

theorem value?_eq_none (h : AssignsAt text n key value) (hignored : ∀ v, ¬Means key value v)
    (hlast : ∀ m later, n < m → ¬AssignsAt text m key later) :
    (read text).1.value? key = none := by
  refine Option.eq_none_iff_forall_ne_some.2 fun v hv => ?_
  obtain ⟨given, ⟨m, hm, hlater⟩, hmeans⟩ := value?_read.1 hv
  rcases Nat.lt_trichotomy m n with hlt | rfl | hlt
  · exact hlater n value hlt h
  · obtain ⟨-, rfl⟩ := h.unique hm
    exact hignored v hmeans
  · exact hlast m given hlt hm

/-- Without a line that assigns to a key what means nothing under it, the settings are the same,
unless the line is the last one to assign to its key and the one before it means something. Then the
setting is open with the line, and without it what the other assignment means. The settings under
all other keys are always the same. -/
theorem read_withoutLine_iff (h : AssignsAt text n key value)
    (hignored : ∀ v, ¬Means key value v) :
    ((read (withoutLine n text)).1 = (read text).1 ↔
      ¬∃ hidden v, Hides text n key hidden ∧ Means key hidden v) ∧
    (∀ hidden v, Hides text n key hidden → Means key hidden v →
      (read text).1.value? key = none ∧ (read (withoutLine n text)).1.value? key = some v) ∧
    ∀ key' ≠ key, (read (withoutLine n text)).1.value? key' = (read text).1.value? key' := by
  have hothers : ∀ key' ≠ key,
      (read (withoutLine n text)).1.value? key' = (read text).1.value? key' := fun key' hne =>
    value?_withoutLine_eq h fun given hgiven => absurd (h.unique hgiven).1.symm hne
  have hhidden : ∀ hidden v, Hides text n key hidden → Means key hidden v →
      (read text).1.value? key = none ∧ (read (withoutLine n text)).1.value? key = some v :=
    fun hidden v hhides hmeans => ⟨value?_eq_none h hignored hhides.last,
      (value?_withoutLine h).2 ⟨hidden, hhides.apart, hmeans⟩⟩
  refine ⟨⟨?_, fun hnone => Layer.ext_value? fun key' => ?_⟩, hhidden, hothers⟩
  · rintro hsame ⟨hidden, v, hhides, hmeans⟩
    obtain ⟨hopen, hvalue⟩ := hhidden hidden v hhides hmeans
    rw [hsame, hopen] at hvalue
    cases hvalue
  · by_cases hkey : key' = key
    · subst hkey
      by_cases hlater : ∃ m later, n < m ∧ AssignsAt text m key' later
      · exact value?_withoutLine_eq h fun _ _ => hlater
      · have hlast : ∀ m later, n < m → ¬AssignsAt text m key' later :=
          fun m later hlt hm => hlater ⟨m, later, hlt, hm⟩
        rw [value?_eq_none h hignored hlast]
        refine Option.eq_none_iff_forall_ne_some.2 fun v hv => hnone ?_
        obtain ⟨hidden, hapart, hmeans⟩ := (value?_withoutLine h).1 hv
        exact ⟨hidden, v, ⟨hlast, hapart⟩, hmeans⟩
    · exact hothers key' hkey

/-- What is no number, and hides the number above it. -/
theorem read_withoutLine_iff_hidden :
    let text := "[interpreter]\ncapacity = 5\ncapacity = lots\n"
    AssignsAt text 2 "capacity" "lots" ∧ (∀ v, ¬Means "capacity" "lots" v) ∧
      Hides text 2 "capacity" "5" ∧ (read (withoutLine 2 text)).1 ≠ (read text).1 ∧
      (read text).1.value? "capacity" = none ∧
      (read (withoutLine 2 text)).1.value? "capacity" = some (.number 5) := by
  intro text
  have hsaid : said text = [.opens "interpreter".toList,
      .assigns "capacity".toList "5".toList, .assigns "capacity".toList "lots".toList,
      .nothing] := by decide +kernel
  have hassigns : AssignsAt text 2 "capacity" "lots" := assignsAt_iff.2 (hsaid ▸ ⟨rfl, rfl⟩)
  have hignored : ∀ v, ¬Means "capacity" "lots" v := fun v h => by
    obtain ⟨n, hn, -⟩ := (means_number_iff (by decide)).1 h
    have hnone : number? "lots" = none := by decide +kernel
    rw [counts_iff, hnone] at hn
    cases hn
  have hmeans : Means "capacity" "5" (.number 5) :=
    (means_number_iff (by decide)).2 ⟨5, counts_iff.2 (by decide +kernel), rfl⟩
  have hlast : ∀ m later, 2 < m → ¬AssignsAt text m "capacity" later := fun m later hlt hm => by
    have hline := saysAt_iff.1 hm.line
    rw [hsaid] at hline
    match m with
    | 3 => cases hline
    | m + 4 => cases hline
  have hhides : Hides text 2 "capacity" "5" := by
    refine ⟨hlast, 1, by decide, assignsAt_iff.2 (hsaid ▸ ⟨rfl, rfl⟩), fun k later hlt hne => ?_⟩
    exact hlast k later (by omega)
  obtain ⟨hsame, hhidden, -⟩ := read_withoutLine_iff hassigns hignored
  exact ⟨hassigns, hignored, hhides, fun h => hsame.1 h ⟨_, _, hhides, hmeans⟩,
    hhidden _ _ hhides hmeans⟩

end Settings.File

end TapeMachine
