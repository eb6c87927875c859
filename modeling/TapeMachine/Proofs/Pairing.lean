import TapeMachine.Balance

/-!
# TapeMachine.Proofs.Pairing

Which `[` belongs to which `]`, said without a scan: the brackets between the two are balanced.

* `segment`            — the instructions between two indices.
* `depth`              — the excess of `[` over `]` before an index.
* `Level`              — the depth at two indices is the same, and never lower between them.
* `level_iff_balanced` — that is what it means for the segment between them to be balanced.
* `Paired`             — a `[` and the `]` that belongs to it.

A bracket belongs to at most one other (`Paired.closing_unique`, `Paired.opening_unique`), and two
pairs never cross (`Paired.nested_or_apart`). All of it is arithmetic on the depth: from a `[` on
it is greater than before, up to and including the `]` that belongs to it, and no longer behind that.
-/

namespace TapeMachine

/-- The instructions from the index `first` on that stand before the index `last`. -/
def segment (is : List Instruction) (first last : Nat) : List Instruction :=
  (is.take last).drop first

/-- The excess of `[` over `]` before an index. -/
def depth (is : List Instruction) (index : Nat) : Int := excess (is.take index)

/-- The depth at `last` is that at `first`, and it is not lower in between. -/
structure Level (is : List Instruction) (first last : Nat) : Prop where
  le : first ≤ last
  settled : depth is last = depth is first
  above : ∀ k, first ≤ k → k ≤ last → depth is first ≤ depth is k

/-- The `[` at `opening` belongs to the `]` at `closing`. -/
structure Paired (is : List Instruction) (opening closing : Nat) : Prop where
  opens : is[opening]? = some .loopOpen
  closes : is[closing]? = some .loopClose
  before : opening < closing
  inside : Balanced (segment is (opening + 1) closing)

/-- Two brackets that belong together, in either order. -/
def Partners (is : List Instruction) (i j : Nat) : Prop := Paired is i j ∨ Paired is j i

section Depth

variable {is : List Instruction} {a b c k : Nat} {i : Instruction}

@[simp] theorem depth_zero : depth is 0 = 0 := rfl

theorem depth_succ (h : is[k]? = some i) : depth is (k + 1) = depth is k + i.weight := by
  rw [depth, List.take_add_one, excess_append, h]
  simp [depth, excess]

theorem depth_of_length_le (h : is.length ≤ k) : depth is k = excess is := by
  rw [depth, List.take_of_length_le h]

theorem excess_segment (h : a ≤ b) : excess (segment is a b) = depth is b - depth is a := by
  have hsplit : is.take a ++ segment is a b = is.take b := by
    have := List.take_append_drop a (is.take b)
    rwa [List.take_take, Nat.min_eq_left h] at this
  have := congrArg excess hsplit
  rw [excess_append] at this
  simp only [depth]
  omega

/-- There are two brackets for every `[`, up to the excess. -/
theorem countP_isBracket (is : List Instruction) :
    (is.countP (·.isBracket) : Int) = 2 * is.count .loopOpen - excess is := by
  induction is with
  | nil => rfl
  | cons i rest ih =>
    have hone : ((if i.isBracket = true then 1 else 0 : Nat) : Int) =
        2 * (if (i == .loopOpen) = true then 1 else 0 : Nat) - i.weight := by
      cases i <;> rfl
    rw [List.countP_cons, List.count_cons, excess]
    omega

theorem take_segment (n : Nat) : (segment is a b).take n = segment is a (min b (a + n)) := by
  rw [segment, segment, List.take_drop, List.take_take, Nat.min_comm]

theorem segment_append_right (h : b ≤ is.length) (js : List Instruction) :
    segment (is ++ js) a b = segment is a b := by
  rw [segment, segment, List.take_append_of_le_length h]

theorem segment_append_left (is js : List Instruction) :
    segment (is ++ js) (is.length + a) (is.length + b) = segment js a b := by
  rw [segment, segment, List.take_length_add_append, List.drop_length_add_append]

/-! ## Balanced segments -/

theorem level_iff_balanced (h : a ≤ b) : Level is a b ↔ Balanced (segment is a b) := by
  constructor
  · intro hl
    refine ⟨?_, fun n => ?_⟩
    · rw [excess_segment h, hl.settled]
      omega
    · rw [take_segment, excess_segment (by omega)]
      have := hl.above (min b (a + n)) (by omega) (by omega)
      omega
  · intro hb
    have hsettled := hb.settled
    rw [excess_segment h] at hsettled
    refine ⟨h, by omega, fun k hak hkb => ?_⟩
    have := hb.nonneg (k - a)
    rw [take_segment, excess_segment (by omega), show min b (a + (k - a)) = k by omega] at this
    omega

theorem segment_zero_length : segment is 0 is.length = is := by simp [segment]

theorem level_zero_length_iff : Level is 0 is.length ↔ Balanced is := by
  rw [level_iff_balanced (Nat.zero_le _), segment_zero_length]

namespace Level

theorem refl (a : Nat) : Level is a a :=
  ⟨Nat.le_refl a, rfl, fun k h h' => Int.le_of_eq (by rw [Nat.le_antisymm h h'])⟩

theorem trans (h : Level is a b) (h' : Level is b c) : Level is a c := by
  refine ⟨Nat.le_trans h.le h'.le, by rw [h'.settled, h.settled], fun k hak hkc => ?_⟩
  have := h.settled
  by_cases hkb : k ≤ b
  · exact h.above k hak hkb
  · have := h'.above k (by omega) hkc
    omega

theorem plain (h : is[k]? = some i) (hi : i.isBracket = false) : Level is k (k + 1) := by
  have hd := depth_succ h
  rw [Instruction.weight_of_not_isBracket hi] at hd
  refine ⟨by omega, by omega, fun n hkn hnk => ?_⟩
  obtain rfl | rfl : n = k ∨ n = k + 1 := by omega
  · omega
  · omega

theorem loop (ho : is[a]? = some .loopOpen) (hl : Level is (a + 1) b)
    (hc : is[b]? = some .loopClose) : Level is a (b + 1) := by
  have hda := depth_succ ho
  have hdb := depth_succ hc
  have hset := hl.settled
  have hle := hl.le
  simp only [Instruction.weight] at hda hdb
  refine ⟨by omega, by omega, fun k hak hkb => ?_⟩
  by_cases hk : k = a
  · exact Int.le_of_eq (by rw [hk])
  · by_cases hk' : k = b + 1
    · rw [hk']; omega
    · have := hl.above k (by omega) (by omega)
      omega

end Level

end Depth

namespace Paired

variable {is js : List Instruction} {i j i' j' : Nat}

/-- What stands behind two brackets has no part in whether they belong together. -/
theorem append_right (h : Paired is i j) (js : List Instruction) : Paired (is ++ js) i j := by
  have hj := (List.getElem?_eq_some_iff.1 h.closes).1
  have hi := Nat.lt_trans h.before hj
  refine ⟨?_, ?_, h.before, ?_⟩
  · rw [List.getElem?_append_left hi, h.opens]
  · rw [List.getElem?_append_left hj, h.closes]
  · rw [segment_append_right (Nat.le_of_lt hj)]
    exact h.inside

/-- Neither has what stands in front of them. -/
theorem append_left (h : Paired js i j) (is : List Instruction) :
    Paired (is ++ js) (is.length + i) (is.length + j) := by
  refine ⟨?_, ?_, Nat.add_lt_add_left h.before _, ?_⟩
  · rw [List.getElem?_append_right (Nat.le_add_right _ _), Nat.add_sub_cancel_left, h.opens]
  · rw [List.getElem?_append_right (Nat.le_add_right _ _), Nat.add_sub_cancel_left, h.closes]
  · rw [Nat.add_assoc, segment_append_left]
    exact h.inside

theorem level (h : Paired is i j) : Level is (i + 1) j :=
  (level_iff_balanced h.before).2 h.inside

theorem of_level (ho : is[i]? = some .loopOpen) (hl : Level is (i + 1) j)
    (hc : is[j]? = some .loopClose) : Paired is i j :=
  ⟨ho, hc, hl.le, (level_iff_balanced hl.le).1 hl⟩

theorem depth_opening (h : Paired is i j) : depth is (i + 1) = depth is i + 1 :=
  depth_succ h.opens

theorem depth_closing (h : Paired is i j) : depth is (j + 1) = depth is i := by
  have hc := depth_succ h.closes
  have hs := h.level.settled
  have ho := h.depth_opening
  simp only [Instruction.weight] at hc
  omega

/-- Between the brackets the depth is greater than before the `[`. -/
theorem lt_depth (h : Paired is i j) {k : Nat} (hik : i < k) (hkj : k ≤ j) :
    depth is i < depth is k := by
  have ha := h.level.above k hik hkj
  have ho := h.depth_opening
  omega

theorem closing_unique (h : Paired is i j) (h' : Paired is i j') : j = j' := by
  have hi := h.before
  have hi' := h'.before
  have hj := h.depth_closing
  have hj' := h'.depth_closing
  rcases Nat.lt_trichotomy j j' with hlt | heq | hgt
  · have := h'.lt_depth (k := j + 1) (by omega) (by omega)
    omega
  · exact heq
  · have := h.lt_depth (k := j' + 1) (by omega) (by omega)
    omega

theorem opening_unique (h : Paired is i j) (h' : Paired is i' j) : i = i' := by
  have hi := h.before
  have hi' := h'.before
  have hj := h.depth_closing
  have hj' := h'.depth_closing
  rcases Nat.lt_trichotomy i i' with hlt | heq | hgt
  · have := h.lt_depth hlt (by omega)
    omega
  · exact heq
  · have := h'.lt_depth hgt (by omega)
    omega

/-- Of two pairs the one that begins later lies inside of the other or behind it. -/
theorem nested_or_apart (h : Paired is i j) (h' : Paired is i' j') (hlt : i < i') :
    j' < j ∨ j < i' := by
  have hi' := h'.before
  have hj := h.depth_closing
  have hj' := h'.depth_closing
  by_cases hcross : i' ≤ j ∧ j ≤ j'
  · -- Behind `j` the depth is back at that before `i`, which is too low for the inside of the other.
    exfalso
    obtain ⟨hij, hjj⟩ := hcross
    have hin := h.lt_depth hlt hij
    by_cases hsame : j = j'
    · rw [hsame] at hj
      omega
    · have := h'.lt_depth (k := j + 1) (by omega) (by omega)
      omega
  · omega

end Paired

namespace Partners

variable {is js : List Instruction} {i j k : Nat}

theorem append_right (h : Partners is i j) (js : List Instruction) : Partners (is ++ js) i j :=
  h.imp (fun h => h.append_right js) (fun h => h.append_right js)

theorem append_left (h : Partners js i j) (is : List Instruction) :
    Partners (is ++ js) (is.length + i) (is.length + j) :=
  h.imp (fun h => h.append_left is) (fun h => h.append_left is)

theorem symm (h : Partners is i j) : Partners is j i := Or.symm h

theorem ne (h : Partners is i j) : i ≠ j := by
  rcases h with h | h
  · exact Nat.ne_of_lt h.before
  · exact (Nat.ne_of_lt h.before).symm

theorem unique (h : Partners is i j) (h' : Partners is i k) : j = k := by
  rcases h with h | h <;> rcases h' with h' | h'
  · exact h.closing_unique h'
  · cases h.opens.symm.trans h'.closes
  · cases h.closes.symm.trans h'.opens
  · exact h.opening_unique h'

theorem isBracket (h : Partners is i j) : ∃ b, is[i]? = some b ∧ b.isBracket = true := by
  rcases h with h | h
  · exact ⟨_, h.opens, rfl⟩
  · exact ⟨_, h.closes, rfl⟩

end Partners

end TapeMachine
