import TapeMachine.Proofs.Scan

/-!
# TapeMachine.Proofs.Matching

A jump table holds exactly the pairs of brackets that belong together.

* `JumpTable.exists_ofProgram_iff`  — which programs have a table.
* `JumpTable.ofProgram_target?_iff` — what stands in the table of a program.
* `JumpTable.mem_entries_iff`, `entries_sorted`, `length_entries` — a table as a list.
* `JumpTable.PairsBrackets`         — a table that holds the pairs of a sequence of instructions,
  with what follows for its shape.
* `JumpTable.ofProgram_pairs`         — the programs that have a table are those with balanced
  brackets, and their table is such a one.
-/

namespace TapeMachine

namespace JumpTable

variable {p : Program} {t : JumpTable} {r : Rejection} {i j : Nat}

theorem scan_settles (p : Program) :
    Scan.Settles p.code.toList (Scan.visitAll 0 p.code.toList (Scan.start p.size)) := by
  refine Scan.visitAll_settles p.code.toList [] _ rfl ?_
  have := Scan.knows_start p.instructions
  rwa [p.length_instructions] at this

/-- A table is what a scan that left no `[` open has found. -/
theorem exists_scan (h : ofProgram p = .ok t) :
    ∃ s : Scan, s.Knows p.instructions p.size ∧ s.waiting = [] ∧ t = s.table := by
  have hs := scan_settles p
  simp only [ofProgram] at h
  split at h
  · cases h
  · rename_i s hv
    rw [hv] at hs
    split at h
    · cases h
    · rename_i hw
      cases h
      exact ⟨s, hs, List.getLast?_eq_none_iff.1 hw, rfl⟩

/-- A program without table has a `]` for which no `[` waits, or a `[` that waits at the end. -/
theorem ofProgram_eq_error (h : ofProgram p = .error r) :
    (∃ (j : Nat) (placed : Placed), p.code[j]? = some placed ∧
      placed.instruction = .loopClose ∧ Level p.instructions 0 j ∧
      r = .unmatchedClose (j + 1) placed.offset) ∨
    ∃ (waiting : List Nat) (oldest : Nat), Waiting p.instructions p.size waiting ∧
      waiting.getLast? = some oldest ∧ r = .unmatchedOpen (oldest + 1) (p.locate oldest) := by
  have hs := scan_settles p
  simp only [ofProgram] at h
  split at h
  · rename_i r' hv
    cases h
    rw [hv] at hs
    obtain ⟨j, placed, hj, hc, hl, hr⟩ := hs
    exact .inl ⟨j, placed, by simpa using hj, hc, hl, hr⟩
  · rename_i s hv
    rw [hv] at hs
    split at h
    · rename_i oldest hw
      cases h
      have hknows : s.Knows p.instructions p.size := hs
      exact .inr ⟨s.waiting, oldest, hknows.waiting, hw, rfl⟩
    · cases h

/-! ## Which programs have a table -/

theorem balanced_of_ofProgram (h : ofProgram p = .ok t) : Balanced p.instructions := by
  obtain ⟨s, hs, hw, _⟩ := exists_scan h
  have hwaiting := hs.waiting
  rw [hw] at hwaiting
  cases hwaiting with
  | nil inside =>
    rw [← p.length_instructions] at inside
    exact level_zero_length_iff.1 inside

theorem exists_ofProgram_iff : (∃ t, ofProgram p = .ok t) ↔ Balanced p.instructions := by
  constructor
  · rintro ⟨t, h⟩
    exact balanced_of_ofProgram h
  · intro hb
    cases hr : ofProgram p with
    | ok t => exact ⟨t, rfl⟩
    | error r =>
      exfalso
      rcases ofProgram_eq_error hr with ⟨j, placed, hj, hc, hl, _⟩ | ⟨waiting, oldest, hw, hlast, _⟩
      · -- The depth is zero before the `]` that stopped the scan, and would be negative behind it.
        have hj' : p.instructions[j]? = some .loopClose := by
          simp [Program.instructions, hj, hc]
        have hd := depth_succ hj'
        have hset := hl.settled
        have hpos : 0 ≤ depth p.instructions (j + 1) := hb.nonneg (j + 1)
        simp only [Instruction.weight, depth_zero] at hd hset
        omega
      · -- At the end of the program the depth is zero, so that no `[` is left waiting.
        have hd := hw.depth_eq
        rw [depth_of_length_le (Nat.le_of_eq p.length_instructions), hb.settled] at hd
        have hnil : waiting = [] := List.length_eq_zero_iff.1 (by omega)
        rw [hnil] at hlast
        cases hlast

/-! ## What stands in a table -/

theorem ofProgram_target?_iff (h : ofProgram p = .ok t) :
    t.target? i = some j ↔ Partners p.instructions i j := by
  obtain ⟨s, hs, _, rfl⟩ := exists_scan h
  refine (hs.target i j).trans ⟨fun hp => hp.1, fun hp => ⟨hp, ?_, ?_⟩⟩
  · obtain ⟨b, hb, _⟩ := hp.isBracket
    exact Program.lt_size_of_getElem? hb
  · obtain ⟨b, hb, _⟩ := hp.symm.isBracket
    exact Program.lt_size_of_getElem? hb

theorem exists_partner (h : ofProgram p = .ok t) {b : Instruction}
    (hi : p.instructions[i]? = some b) (hb : b.isBracket = true) :
    ∃ j, Partners p.instructions i j := by
  obtain ⟨s, hs, hw, _⟩ := exists_scan h
  rcases hs.settled i (Program.lt_size_of_getElem? hi) b hi hb with hwait | ⟨j, _, hp⟩
  · rw [hw] at hwait
    cases hwait
  · exact ⟨j, hp⟩

/-! ## Tables as lists -/

theorem mem_entries_iff : (i, j) ∈ t.entries ↔ t.target? i = some j := by
  simp only [entries, List.mem_filterMap, Prod.exists, List.mem_zipIdx_iff_getElem?]
  constructor
  · rintro ⟨target, index, hget, hmap⟩
    obtain ⟨k, rfl, hk⟩ := Option.map_eq_some_iff.1 hmap
    cases hk
    simpa [target?, Option.join_eq_some_iff] using hget
  · intro h
    refine ⟨some j, i, ?_, rfl⟩
    simpa [target?, Option.join_eq_some_iff] using h

theorem entries_sorted (t : JumpTable) : t.entries.Pairwise (·.1 < ·.1) := by
  have hindex : t.targets.toList.zipIdx.Pairwise (·.2 < ·.2) := by
    rw [← List.pairwise_map (R := (· < ·)), List.zipIdx_map_snd]
    exact List.pairwise_lt_range'
  refine List.pairwise_filterMap.2 (hindex.imp ?_)
  intro a b hab x hx y hy
  obtain ⟨_, _, rfl⟩ := Option.map_eq_some_iff.1 hx
  obtain ⟨_, _, rfl⟩ := Option.map_eq_some_iff.1 hy
  exact hab

theorem length_entries (t : JumpTable) :
    t.entries.length = t.targets.toList.countP (·.isSome) := by
  rw [entries, List.length_filterMap_eq_countP]
  conv => rhs; rw [← List.zipIdx_map_fst 0 t.targets.toList, List.countP_map]
  refine List.countP_congr fun a _ => ?_
  simp

theorem target?_isSome_iff (h : ofProgram p = .ok t) :
    (t.target? i).isSome ↔ ∃ b, p.instructions[i]? = some b ∧ b.isBracket = true := by
  rw [Option.isSome_iff_exists]
  constructor
  · rintro ⟨j, hj⟩
    exact ((ofProgram_target?_iff h).1 hj).isBracket
  · rintro ⟨b, hi, hb⟩
    obtain ⟨j, hp⟩ := exists_partner h hi hb
    exact ⟨j, (ofProgram_target?_iff h).2 hp⟩

theorem pairs_of_ofProgram (h : ofProgram p = .ok t) :
    t.pairs = p.instructions.count .loopOpen := by
  obtain ⟨s, hs, hw, rfl⟩ := exists_scan h
  have hpairs := hs.pairs
  rw [hw, ← p.length_instructions, List.take_length] at hpairs
  exact hpairs

theorem length_entries_of_ofProgram (h : ofProgram p = .ok t) :
    t.entries.length = 2 * t.pairs := by
  -- The table is as long as the program, and filled where there is a bracket.
  have hfilled : t.targets.toList.map (·.isSome) = p.instructions.map (·.isBracket) := by
    obtain ⟨s, hs, _, ht⟩ := exists_scan h
    refine List.ext_getElem (by simp [ht, Scan.table, hs.size]) fun i hi hi' => ?_
    have hiff := target?_isSome_iff (i := i) h
    simp only [List.length_map, Array.length_toList] at hi hi'
    simp [target?, hi, hi'] at hiff
    simp [hiff]
  have hcount := congrArg (List.countP id) hfilled
  have htwo := countP_isBracket p.instructions
  have hpairs := pairs_of_ofProgram h
  rw [(balanced_of_ofProgram h).settled] at htwo
  rw [List.countP_map, List.countP_map] at hcount
  rw [length_entries]
  simp only [Function.comp_def, id] at hcount
  omega

/-! ## The table of a program -/

/-- The table holds the pairs of a sequence of instructions, and nothing else. -/
structure PairsBrackets (t : JumpTable) (is : List Instruction) : Prop where
  /-- Two brackets are joined if the first is a `[`, the later a `]` and what stands between them
  is balanced. -/
  target : ∀ i j, t.target? i = some j ↔ Partners is i j
  /-- Other instructions have no partner, and there is none past the end. -/
  other : ∀ i, (∀ b, is[i]? = some b → b.isBracket = false) → t.target? i = none
  involutive : ∀ i j, t.target? i = some j → t.target? j = some i ∧ i ≠ j
  /-- Of two pairs the one that begins later lies inside of the other or behind it. -/
  laminar : ∀ i j i' j', t.target? i = some j → i < j → t.target? i' = some j' → i' < j' →
    i < i' → j' < j ∨ j < i'
  pairs : t.pairs = is.count .loopOpen
  length_entries : t.entries.length = 2 * t.pairs
  sorted : t.entries.Pairwise (·.1 < ·.1)
  mem_entries : ∀ i j, (i, j) ∈ t.entries ↔ t.target? i = some j

theorem paired_of_target? (h : ofProgram p = .ok t) (hij : t.target? i = some j) (hlt : i < j) :
    Paired p.instructions i j := by
  rcases (ofProgram_target?_iff h).1 hij with hp | hp
  · exact hp
  · have := hp.before
    omega

theorem pairsBrackets_of_ofProgram (h : ofProgram p = .ok t) :
    t.PairsBrackets p.instructions where
  target i j := ofProgram_target?_iff h
  other i hi := by
    rw [← Option.not_isSome_iff_eq_none, target?_isSome_iff h]
    rintro ⟨b, hb, hbracket⟩
    rw [hi b hb] at hbracket
    cases hbracket
  involutive i j hij := by
    have hp := (ofProgram_target?_iff h).1 hij
    exact ⟨(ofProgram_target?_iff h).2 hp.symm, hp.ne⟩
  laminar i j i' j' hij hlt hij' hlt' hii' :=
    (paired_of_target? h hij hlt).nested_or_apart (paired_of_target? h hij' hlt') hii'
  pairs := pairs_of_ofProgram h
  length_entries := length_entries_of_ofProgram h
  sorted := entries_sorted t
  mem_entries _ _ := mem_entries_iff

/-- The programs that have a table are those with balanced brackets, and the table pairs them. -/
theorem ofProgram_pairs (p : Program) :
    ((∃ t, ofProgram p = .ok t) ↔ Balanced p.instructions) ∧
      ∀ t, ofProgram p = .ok t → t.PairsBrackets p.instructions :=
  ⟨exists_ofProgram_iff, fun _ h => pairsBrackets_of_ofProgram h⟩

/-- The table of `[[][]]`. -/
theorem ofProgram_pairs_nested :
    let p : Program := ⟨#[⟨.loopOpen, 0⟩, ⟨.loopOpen, 1⟩, ⟨.loopClose, 2⟩, ⟨.loopOpen, 3⟩,
      ⟨.loopClose, 4⟩, ⟨.loopClose, 5⟩]⟩
    let t : JumpTable := ⟨#[some 5, some 2, some 1, some 4, some 3, some 0], 3⟩
    ofProgram p = .ok t ∧ Balanced p.instructions ∧ t.PairsBrackets p.instructions := by
  intro p t
  have h : ofProgram p = .ok t := by cbv
  exact ⟨h, (ofProgram_pairs p).1.1 ⟨t, h⟩, (ofProgram_pairs p).2 t h⟩

end JumpTable

end TapeMachine
