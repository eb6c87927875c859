import TapeMachine.JumpTable
import TapeMachine.Proofs.Pairing

/-!
# TapeMachine.Proofs.Scan

What the scan that builds a jump table knows on its way.

* `Waiting`              — the `[` without partner among the first instructions, innermost first.
* `JumpTable.Scan.Knows` — the invariant: what is known after the first `k` instructions. There is
  one lemma for each kind of instruction: `Knows.plain`, `Knows.opening`, `Knows.closing`.
* `JumpTable.Scan.visitAll_settles` — the invariant carried to the end of the program, or to the
  `]` that stops the scan.
-/

namespace TapeMachine

/-- The indices of the `[` that are still open before the instruction `k`, innermost first. What
stands between one of them and the next is balanced. -/
inductive Waiting (is : List Instruction) : Nat → List Nat → Prop where
  | nil {k : Nat} (inside : Level is 0 k) : Waiting is k []
  | cons {k opening : Nat} {outer : List Nat} (opens : is[opening]? = some .loopOpen)
      (inside : Level is (opening + 1) k) (h : Waiting is opening outer) :
      Waiting is k (opening :: outer)

namespace Waiting

variable {is : List Instruction} {k l opening : Nat} {waiting : List Nat}

theorem depth_eq (h : Waiting is k waiting) : depth is k = waiting.length := by
  induction h with
  | nil inside => rw [inside.settled, depth_zero]; rfl
  | cons opens inside _ ih =>
    rw [inside.settled, depth_succ opens, ih]
    rfl

theorem extend (h : Waiting is k waiting) (hl : Level is k l) : Waiting is l waiting := by
  cases h with
  | nil inside => exact .nil (inside.trans hl)
  | cons opens inside outer => exact .cons opens (inside.trans hl) outer

theorem push (h : Waiting is k waiting) (ho : is[k]? = some .loopOpen) :
    Waiting is (k + 1) (k :: waiting) := .cons ho (.refl _) h

theorem paired (h : Waiting is k (opening :: waiting)) (hc : is[k]? = some .loopClose) :
    Paired is opening k := by
  cases h with
  | cons opens inside _ => exact .of_level opens inside hc

theorem pop (h : Waiting is k (opening :: waiting)) (hc : is[k]? = some .loopClose) :
    Waiting is (k + 1) waiting := by
  cases h with
  | cons opens inside outer => exact outer.extend (.loop opens inside hc)

end Waiting

namespace Partners

variable {is : List Instruction} {i j k : Nat}

/-- An instruction without partner among those passed adds no pair to them. -/
theorem lt_iff_lt_succ (hself : ∀ l < k + 1, ¬Partners is k l) :
    Partners is i j ∧ i < k ∧ j < k ↔ Partners is i j ∧ i < k + 1 ∧ j < k + 1 := by
  constructor
  · rintro ⟨hp, hi, hj⟩
    exact ⟨hp, by omega, by omega⟩
  · rintro ⟨hp, hi, hj⟩
    have hik : i ≠ k := fun he => hself j hj (he ▸ hp)
    have hjk : j ≠ k := fun he => hself i hi (he ▸ hp.symm)
    exact ⟨hp, by omega, by omega⟩

/-- What a table says that names one partner is all there is to say. -/
theorem some_eq_iff (h : Partners is i j) (hi : i < k) (hj : j < k) {l : Nat} :
    some j = some l ↔ Partners is i l ∧ i < k ∧ l < k := by
  constructor
  · intro he
    cases he
    exact ⟨h, hi, hj⟩
  · rintro ⟨hl, _, _⟩
    rw [h.unique hl]

end Partners

namespace JumpTable

/-- The partners found so far, as a table. -/
def Scan.table (s : Scan) : JumpTable := ⟨s.targets, s.pairs⟩

/-- What a scan knows after the first `k` instructions. -/
structure Scan.Knows (is : List Instruction) (k : Nat) (s : Scan) : Prop where
  size : s.targets.size = is.length
  waiting : Waiting is k s.waiting
  /-- The partners found are those that belong together. -/
  target : ∀ i j, s.table.target? i = some j ↔ Partners is i j ∧ i < k ∧ j < k
  /-- Every bracket is open or has found its partner. -/
  settled : ∀ i < k, ∀ b, is[i]? = some b → b.isBracket = true →
    i ∈ s.waiting ∨ ∃ j < k, Partners is i j
  pairs : s.pairs + s.waiting.length = (is.take k).count .loopOpen

theorem target?_setIfInBounds {t : JumpTable} {o k : Nat} (ho : o < t.targets.size)
    (hk : k < t.targets.size) (pairs i : Nat) :
    target? ⟨(t.targets.setIfInBounds o (some k)).setIfInBounds k (some o), pairs⟩ i =
      if i = k then some o else if i = o then some k else t.target? i := by
  simp only [target?, Array.getElem?_setIfInBounds, Array.size_setIfInBounds, hk, ho, if_true]
  by_cases hik : k = i
  · simp [hik]
  · by_cases hio : o = i
    · simp [hik, hio, Ne.symm hik]
    · simp [hik, hio, Ne.symm hik, Ne.symm hio]

namespace Scan

variable {is : List Instruction} {k : Nat} {s s' : Scan}

theorem knows_start (is : List Instruction) : Knows is 0 (start is.length) where
  size := by simp [start]
  waiting := .nil (.refl 0)
  target i j := by
    constructor
    · intro h
      simp only [table, start, target?, Array.getElem?_replicate] at h
      split at h <;> cases h
    · rintro ⟨_, h, _⟩
      omega
  settled i h := by omega
  pairs := by simp [start]

namespace Knows

theorem settled_of_lt (h : Knows is k s) {m : Nat} (hm : m < k) {b : Instruction}
    (hb : is[m]? = some b) (hbracket : b.isBracket = true) :
    m ∈ s.waiting ∨ ∃ j < k + 1, Partners is m j := by
  rcases h.settled m hm b hb hbracket with hw | ⟨j, hj, hp⟩
  · exact .inl hw
  · exact .inr ⟨j, by omega, hp⟩

theorem plain (h : Knows is k s) {i : Instruction} (hi : is[k]? = some i)
    (hb : i.isBracket = false) : Knows is (k + 1) s := by
  have hself : ∀ l < k + 1, ¬Partners is k l := by
    intro l _ hp
    obtain ⟨b, hb', hbracket⟩ := hp.isBracket
    rw [hi] at hb'
    cases hb'
    rw [hb] at hbracket
    cases hbracket
  refine ⟨h.size, h.waiting.extend (.plain hi hb), fun m j => ?_, fun m hm b hmb hbb => ?_, ?_⟩
  · exact (h.target m j).trans (Partners.lt_iff_lt_succ hself)
  · by_cases hmk : m = k
    · rw [hmk, hi] at hmb
      cases hmb
      rw [hb] at hbb
      cases hbb
    · exact h.settled_of_lt (by omega) hmb hbb
  · have hne : (i == .loopOpen) = false := by cases i <;> first | rfl | cases hb
    rw [h.pairs, List.take_add_one, List.count_append, hi]
    simp [List.count_cons, hne]

theorem opening (h : Knows is k s) (ho : is[k]? = some .loopOpen) :
    Knows is (k + 1) ⟨s.targets, s.pairs, k :: s.waiting⟩ := by
  have hself : ∀ l < k + 1, ¬Partners is k l := by
    rintro l hl (hp | hp)
    · have := hp.before
      omega
    · cases ho.symm.trans hp.closes
  refine ⟨h.size, h.waiting.push ho, fun m j => ?_, fun m hm b hmb hbb => ?_, ?_⟩
  · exact (h.target m j).trans (Partners.lt_iff_lt_succ hself)
  · by_cases hmk : m = k
    · exact .inl (by simp [hmk])
    · rcases h.settled_of_lt (by omega) hmb hbb with hw | hpartner
      · exact .inl (List.mem_cons_of_mem _ hw)
      · exact .inr hpartner
  · have := h.pairs
    rw [List.take_add_one, List.count_append, ho]
    simp
    omega

/-- A `]` is the partner of the innermost `[` that waits. -/
theorem closing {o : Nat} {outer : List Nat} {targets : Array (Option Nat)} {pairs : Nat}
    (h : Knows is k ⟨targets, pairs, o :: outer⟩) (hc : is[k]? = some .loopClose) :
    Knows is (k + 1)
      ⟨(targets.setIfInBounds o (some k)).setIfInBounds k (some o), pairs + 1, outer⟩ := by
  have hp : Paired is o k := h.waiting.paired hc
  have hok := hp.before
  have hk : k < targets.size := by
    rw [h.size]
    exact (List.getElem?_eq_some_iff.1 hc).1
  refine ⟨by simpa using h.size, h.waiting.pop hc, fun m j => ?_, fun m hm b hmb hbb => ?_, ?_⟩
  · have htarget := target?_setIfInBounds (t := ⟨targets, pairs⟩) (Nat.lt_trans hok hk) hk
      (pairs + 1) m
    show target? ⟨_, _⟩ m = some j ↔ _
    rw [htarget]
    by_cases hmk : m = k
    · subst hmk
      rw [if_pos rfl]
      exact Partners.some_eq_iff (.inr hp) (by omega) (by omega)
    · rw [if_neg hmk]
      by_cases hmo : m = o
      · subst hmo
        rw [if_pos rfl]
        exact Partners.some_eq_iff (.inl hp) (by omega) (by omega)
      · -- The partner of `k` is `o`, so that `k` is not the partner of another instruction.
        rw [if_neg hmo]
        refine (h.target m j).trans ?_
        constructor
        · rintro ⟨hpm, hm, hj⟩
          exact ⟨hpm, by omega, by omega⟩
        · rintro ⟨hpm, hm, hj⟩
          have hjk : j ≠ k := by
            rintro rfl
            exact hmo (Partners.unique hpm.symm (.inr hp))
          exact ⟨hpm, by omega, by omega⟩
  · by_cases hmk : m = k
    · exact .inr ⟨o, by omega, hmk ▸ .inr hp⟩
    · rcases h.settled_of_lt (by omega) hmb hbb with hw | hpartner
      · rcases List.mem_cons.1 hw with rfl | hw
        · exact .inr ⟨k, by omega, .inl hp⟩
        · exact .inl hw
      · exact .inr hpartner
  · have := h.pairs
    rw [List.take_add_one, List.count_append, hc]
    simp at this ⊢
    omega

theorem visit {placed : Placed} (h : Knows is k s) (hi : is[k]? = some placed.instruction)
    (hv : s.visit k placed = .ok s') : Knows is (k + 1) s' := by
  obtain ⟨targets, pairs, waiting⟩ := s
  simp only [Scan.visit] at hv
  split at hv
  · rename_i ho
    cases hv
    exact h.opening (hi.trans (congrArg some ho))
  · rename_i hc
    split at hv
    · cases hv
    · cases hv
      exact h.closing (hi.trans (congrArg some hc))
  · rename_i ho hc
    cases hv
    refine h.plain hi ?_
    cases hp : placed.instruction <;> first | rfl | contradiction

end Knows

/-- Only a `]` for which no `[` waits stops a scan. -/
theorem visit_error {placed : Placed} {r : Rejection} (hv : s.visit k placed = .error r) :
    placed.instruction = .loopClose ∧ s.waiting = [] ∧
      r = .unmatchedClose (k + 1) placed.offset := by
  obtain ⟨targets, pairs, waiting⟩ := s
  simp only [visit] at hv
  split at hv
  · cases hv
  · rename_i hc
    split at hv
    · cases hv
      exact ⟨hc, rfl, rfl⟩
    · cases hv
  · cases hv

/-- What a scan of all instructions comes to: it knows all of them, or it was stopped by a `]`
before which the brackets are balanced. -/
def Settles (code : List Placed) : Except Rejection Scan → Prop
  | .ok s => Knows (code.map (·.instruction)) code.length s
  | .error r => ∃ (j : Nat) (placed : Placed), code[j]? = some placed ∧
      placed.instruction = .loopClose ∧ Level (code.map (·.instruction)) 0 j ∧
      r = .unmatchedClose (j + 1) placed.offset

theorem visitAll_settles {code : List Placed} :
    ∀ (rest passed : List Placed) (s : Scan), passed ++ rest = code →
      Knows (code.map (·.instruction)) passed.length s →
      Settles code (visitAll passed.length rest s) := by
  intro rest
  induction rest with
  | nil =>
    intro passed s hcode h
    rw [List.append_nil] at hcode
    rw [visitAll, ← hcode]
    rwa [← hcode] at h
  | cons placed rest ih =>
    intro passed s hcode h
    have hat : code[passed.length]? = some placed := by
      rw [← hcode]
      simp
    rw [visitAll]
    cases hv : s.visit passed.length placed with
    | error r =>
      obtain ⟨hc, hw, hr⟩ := visit_error hv
      refine ⟨passed.length, placed, hat, hc, ?_, hr⟩
      have hwaiting := h.waiting
      rw [hw] at hwaiting
      cases hwaiting with
      | nil inside => exact inside
    | ok s' =>
      have hnext := ih (passed ++ [placed]) s' (by simpa using hcode)
      rw [List.length_append] at hnext
      exact hnext (h.visit (by simp [hat]) hv)

end Scan

end JumpTable

end TapeMachine
