import TapeMachine.Proofs.Offsets

/-!
# TapeMachine.Proofs.Unmatched

Which bracket is reported when the brackets of a program cannot be paired.

* `Surplus`  — the first instructions up to an index are the fewest among which there are more `]`
  than `[`.
* `Unclosed` — a `[` with which no balanced segment begins.
* `Waiting.nonneg`, `Waiting.oldest` — what the `[` that wait say about the instructions passed: no
  beginning has more `]` than `[`, and the oldest `[` is unclosed. Both by induction on the `[` that
  wait.
* `JumpTable.ofProgram_unbalanced` — the `]` that makes the surplus is reported, or else the first
  `[` that is unclosed.
-/

namespace TapeMachine

/-- The instructions up to and including the one at the index are the shortest beginning that has
more `]` than `[`. -/
structure Surplus (is : List Instruction) (index : Nat) : Prop where
  negative : excess (is.take (index + 1)) < 0
  shortest : ∀ n ≤ index, 0 ≤ excess (is.take n)

/-- The `[` at the index is closed nowhere: no segment that begins with it is balanced. -/
structure Unclosed (is : List Instruction) (index : Nat) : Prop where
  opens : is[index]? = some .loopOpen
  never : ∀ last, index < last → ¬Balanced (segment is index last)

section

variable {is : List Instruction} {i k index first : Nat} {waiting : List Nat}

theorem Level.balanced_take (h : Level is 0 k) : Balanced (is.take k) := by
  have hsegment := (level_iff_balanced (Nat.zero_le k)).1 h
  rwa [segment, List.drop_zero] at hsegment

theorem depth_min_length (is : List Instruction) (n : Nat) :
    depth is (min n is.length) = depth is n := by
  by_cases hn : n ≤ is.length
  · rw [Nat.min_eq_left hn]
  · rw [depth_of_length_le (by omega), depth_of_length_le (by omega)]

/-! ## What waits -/

namespace Waiting

theorem nonneg (h : Waiting is k waiting) : ∀ n ≤ k, 0 ≤ depth is n := by
  induction h with
  | nil inside =>
    intro n hn
    exact inside.above n (Nat.zero_le n) hn
  | @cons k opening outer opens inside h ih =>
    intro n hn
    by_cases hle : n ≤ opening
    · exact ih n hle
    · have hopen := ih opening (Nat.le_refl opening)
      have hstep := depth_succ opens
      have habove := inside.above n (by omega) hn
      simp only [Instruction.weight] at hstep
      omega

/-- Behind the oldest `[` that waits the depth is greater than in front of it, where it is zero. -/
theorem oldest (h : Waiting is k waiting) (hlast : waiting.getLast? = some first) :
    Level is 0 first ∧ first < k ∧ ∀ n, first < n → n ≤ k → 0 < depth is n := by
  induction h with
  | nil _ => cases hlast
  | @cons k opening outer opens inside h ih =>
    have hstep := depth_succ opens
    have hle := inside.le
    simp only [Instruction.weight] at hstep
    cases outer with
    | nil =>
      obtain rfl : opening = first := by simpa using hlast
      cases h with
      | nil level =>
        have hsettled := level.settled
        refine ⟨level, by omega, fun n hn hnk => ?_⟩
        have habove := inside.above n (by omega) hnk
        simp only [depth_zero] at hsettled
        omega
    | cons next rest =>
      obtain ⟨hlevel, hlt, hpos⟩ := ih ((List.getLast?_cons_cons ..).symm.trans hlast)
      refine ⟨hlevel, by omega, fun n hn hnk => ?_⟩
      by_cases hno : n ≤ opening
      · exact hpos n hn hno
      · have hopen := hpos opening hlt (Nat.le_refl opening)
        have habove := inside.above n (by omega) hnk
        omega

end Waiting

theorem surplus_of_level (h : Level is 0 index) (hc : is[index]? = some .loopClose) :
    Surplus is index where
  negative := by
    have hstep := depth_succ hc
    have hsettled := h.settled
    simp only [Instruction.weight, depth_zero] at hstep hsettled
    show depth is (index + 1) < 0
    omega
  shortest n hn := h.above n (Nat.zero_le n) hn

theorem Waiting.unclosed (h : Waiting is is.length waiting)
    (hlast : waiting.getLast? = some first) : Unclosed is first where
  opens := h.opens_of_mem (List.mem_of_getLast? hlast)
  never last hlt hbalanced := by
    -- A balanced segment that begins with a `[` would end where the depth is zero again.
    obtain ⟨hlevel, hfirst, hpos⟩ := h.oldest hlast
    have hsettled := ((level_iff_balanced (Nat.le_of_lt hlt)).2 hbalanced).settled
    have hpositive := hpos (min last is.length) (by omega) (Nat.min_le_right ..)
    rw [depth_min_length, hsettled, hlevel.settled, depth_zero] at hpositive
    omega

theorem Balanced.exists_paired (h : Balanced is) (ho : is[i]? = some .loopOpen) :
    ∃ j, Paired is i j := by
  let p : Program := ⟨(is.map fun i => ⟨i, 0⟩).toArray⟩
  have hp : p.instructions = is := by simp [p, Program.instructions, Function.comp_def]
  obtain ⟨t, ht⟩ := JumpTable.exists_ofProgram_iff.2 (hp.symm ▸ h)
  obtain ⟨j, hj⟩ := JumpTable.exists_partner ht (hp.symm ▸ ho) rfl
  rw [hp] at hj
  rcases hj with hj | hj
  · exact ⟨j, hj⟩
  · cases ho.symm.trans hj.closes

theorem not_unclosed_of_level (hlevel : Level is 0 k) (hi : i < k) : ¬Unclosed is i := by
  intro h
  have ho : (is.take k)[i]? = some .loopOpen := by
    rw [List.getElem?_take_of_lt hi, h.opens]
  obtain ⟨j, hj⟩ := hlevel.balanced_take.exists_paired ho
  have hpaired := hj.append_right (is.drop k)
  rw [List.take_append_drop] at hpaired
  have hloop : Level is i (j + 1) := .loop hpaired.opens hpaired.level hpaired.closes
  exact h.never (j + 1) (Nat.lt_succ_of_lt hpaired.before) ((level_iff_balanced hloop.le).1 hloop)

end

namespace JumpTable

variable {source : String} {p : Program}

/-- If there is a beginning with more `]` than `[`, the last instruction of the shortest one is
reported, whatever comes behind it. If there is none, the first `[` that is unclosed is reported,
and what stands in front of it is balanced. A report counts the instructions from one, and its
offset is that of the character with which the bracket is written. -/
theorem ofProgram_unbalanced (hsource : Program.ofSource source = .ok p)
    (hunbalanced : ¬Balanced p.instructions) :
    ((∃ n, excess (p.instructions.take n) < 0) →
      ∃ index offset, Surplus p.instructions index ∧
        ofProgram p = .error (.unmatchedClose (index + 1) offset) ∧
        p.offset? index = some offset ∧
        Program.Stands source.toList index offset .loopClose) ∧
    ((∀ n, 0 ≤ excess (p.instructions.take n)) →
      ∃ index offset, Unclosed p.instructions index ∧
        (∀ i < index, ¬Unclosed p.instructions i) ∧ Balanced (p.instructions.take index) ∧
        ofProgram p = .error (.unmatchedOpen (index + 1) offset) ∧
        p.offset? index = some offset ∧
        Program.Stands source.toList index offset .loopOpen) := by
  cases hr : ofProgram p with
  | ok t => exact absurd (balanced_of_ofProgram hr) hunbalanced
  | error r =>
    rcases ofProgram_eq_error hr with
      ⟨index, placed, hat, hc, hlevel, rfl⟩ | ⟨waiting, index, hwaiting, hlast, rfl⟩
    · have hi : p.instruction? index = some .loopClose := by
        rw [Program.instruction?, hat, Option.map_some, hc]
      have hsurplus : Surplus p.instructions index :=
        surplus_of_level hlevel ((p.instruction?_eq_getElem? index).symm.trans hi)
      have hlocate : p.locate index = placed.offset := by
        rw [Program.locate, Program.offset?, hat]
        rfl
      rw [← hlocate]
      refine ⟨fun _ => ⟨index, p.locate index, hsurplus, rfl, Program.offset?_of_instruction? hi,
        Program.stands_of_instruction? hsource hi⟩, fun hnonneg => ?_⟩
      exact absurd (hnonneg (index + 1)) (Int.not_le.2 hsurplus.negative)
    · rw [← p.length_instructions] at hwaiting
      obtain ⟨hlevel, _, _⟩ := hwaiting.oldest hlast
      have hunclosed := hwaiting.unclosed hlast
      have hi : p.instruction? index = some .loopOpen :=
        (p.instruction?_eq_getElem? index).trans hunclosed.opens
      refine ⟨?_, fun _ => ⟨index, p.locate index, hunclosed,
        fun i hi => not_unclosed_of_level hlevel hi, hlevel.balanced_take, rfl,
        Program.offset?_of_instruction? hi, Program.stands_of_instruction? hsource hi⟩⟩
      rintro ⟨n, hn⟩
      have hnonneg := hwaiting.nonneg (min n p.instructions.length) (Nat.min_le_right ..)
      rw [depth_min_length] at hnonneg
      exact absurd hnonneg (Int.not_le.2 hn)

/-- In `[]é]][` the first `]` too many is reported, with the letter counted in its offset and in
spite of the brackets behind it. In `[é[]` the outer `[` is reported, not the one that is closed. -/
theorem ofProgram_unbalanced_early :
    (∃ p, Program.ofSource "[]é]][" = .ok p ∧ ¬Balanced p.instructions ∧
      ofProgram p = .error (.unmatchedClose 3 3) ∧ Surplus p.instructions 2) ∧
    ∃ p, Program.ofSource "[é[]" = .ok p ∧ ¬Balanced p.instructions ∧
      ofProgram p = .error (.unmatchedOpen 1 0) ∧ Unclosed p.instructions 0 := by
  constructor
  · let p : Program := ⟨#[⟨.loopOpen, 0⟩, ⟨.loopClose, 1⟩, ⟨.loopClose, 3⟩, ⟨.loopClose, 4⟩,
      ⟨.loopOpen, 5⟩]⟩
    have hsource : Program.ofSource "[]é]][" = .ok p := rfl
    have hnegative : excess (p.instructions.take 3) < 0 := by decide
    have hunbalanced : ¬Balanced p.instructions := fun h => Int.not_le.2 hnegative (h.nonneg 3)
    obtain ⟨index, offset, hsurplus, hr, _⟩ :=
      (ofProgram_unbalanced hsource hunbalanced).1 ⟨3, hnegative⟩
    have hr' : ofProgram p = .error (.unmatchedClose 3 3) := rfl
    cases hr'.symm.trans hr
    exact ⟨p, hsource, hunbalanced, hr', hsurplus⟩
  · let p : Program := ⟨#[⟨.loopOpen, 0⟩, ⟨.loopOpen, 2⟩, ⟨.loopClose, 3⟩]⟩
    have hsource : Program.ofSource "[é[]" = .ok p := rfl
    have hunbalanced : ¬Balanced p.instructions := by
      intro h
      have hsettled : excess p.instructions = 1 := by decide
      rw [h.settled] at hsettled
      cases hsettled
    have hnonneg : ∀ n, 0 ≤ excess (p.instructions.take n) := by
      intro n
      have hshort : ∀ n ≤ 3, 0 ≤ excess (p.instructions.take n) := by decide
      have hmin := hshort (min n p.instructions.length) (Nat.min_le_right n 3)
      rwa [← depth, depth_min_length] at hmin
    obtain ⟨index, offset, hunclosed, _, _, hr, _⟩ :=
      (ofProgram_unbalanced hsource hunbalanced).2 hnonneg
    have hr' : ofProgram p = .error (.unmatchedOpen 1 0) := rfl
    cases hr'.symm.trans hr
    exact ⟨p, hsource, hunbalanced, hr', hunclosed⟩

end JumpTable

end TapeMachine
