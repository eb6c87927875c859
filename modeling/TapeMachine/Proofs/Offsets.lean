import TapeMachine.Interpreter
import TapeMachine.Proofs.Matching

/-!
# TapeMachine.Proofs.Offsets

The places of a program and the characters of its text.

* `Program.countSymbols` — how many characters of a text are instructions.
* `Program.Stands`       — the instruction with a given index stands at a given character of the
  text. `stands_of_getElem?` says so of every instruction of a program, by induction on the text.
* `Interpreter.Accuses`  — the bracket that a rejection is about; `accuses_of_read` says that a
  text is rejected only on account of such a bracket, or because it holds no instruction.
-/

namespace TapeMachine

theorem Waiting.opens_of_mem {is : List Instruction} {k opening : Nat} {waiting : List Nat}
    (h : Waiting is k waiting) (hmem : opening ∈ waiting) : is[opening]? = some .loopOpen := by
  induction h with
  | nil _ => cases hmem
  | cons opens _ _ ih =>
    rcases List.mem_cons.1 hmem with rfl | hmem
    · exact opens
    · exact ih hmem

namespace Program

/-- The number of characters that are instructions. -/
def countSymbols (text : List Char) : Nat := text.countP fun c => (Instruction.ofSymbol? c).isSome

/-- The instruction with the given index stands at the offset: its symbol is the character there,
and in front of it there are as many symbols as instructions. -/
structure Stands (text : List Char) (index offset : Nat) (i : Instruction) : Prop where
  symbol : text[offset]? = some i.symbol
  before : countSymbols (text.take offset) = index

variable {text : List Char} {source : String} {p : Program} {index offset : Nat} {i : Instruction}

theorem Stands.lt (h : Stands text index offset i) : offset < text.length :=
  (List.getElem?_eq_some_iff.1 h.symbol).1

theorem Stands.comment (h : Stands text index offset i) {c : Char}
    (hc : Instruction.ofSymbol? c = none) : Stands (c :: text) index (offset + 1) i where
  symbol := h.symbol
  before := by
    have hbefore := h.before
    simp only [countSymbols] at hbefore ⊢
    simp [hc, hbefore]

theorem Stands.instruction (h : Stands text index offset i) {c : Char} {first : Instruction}
    (hc : Instruction.ofSymbol? c = some first) :
    Stands (c :: text) (index + 1) (offset + 1) i where
  symbol := h.symbol
  before := by
    have hbefore := h.before
    simp only [countSymbols] at hbefore ⊢
    simp [hc, hbefore]

/-- The instructions of a text with offsets that are counted from `start`. -/
theorem stands_of_getElem?_from {start : Nat} {placed : Placed}
    (h : ((text.zipIdx start).filterMap fun (c, offset) =>
      (Instruction.ofSymbol? c).map (⟨·, offset⟩ : Instruction → Placed))[index]? = some placed) :
    ∃ offset, placed.offset = start + offset ∧ Stands text index offset placed.instruction := by
  induction text generalizing start index with
  | nil => cases h
  | cons c rest ih =>
    rw [List.zipIdx_cons, List.filterMap_cons] at h
    cases hc : Instruction.ofSymbol? c with
    | none =>
      simp only [hc, Option.map_none] at h
      obtain ⟨offset, hoffset, hstands⟩ := ih h
      exact ⟨offset + 1, by omega, hstands.comment hc⟩
    | some first =>
      simp only [hc, Option.map_some] at h
      cases index with
      | zero =>
        cases h
        exact ⟨0, rfl, congrArg some (Instruction.ofSymbol?_eq_some_iff.1 hc), rfl⟩
      | succ index =>
        obtain ⟨offset, hoffset, hstands⟩ := ih h
        exact ⟨offset + 1, by omega, hstands.instruction hc⟩

theorem ofSource_eq_ok_iff :
    ofSource source = .ok p ↔ placed source.toList ≠ [] ∧ p.code.toList = placed source.toList := by
  obtain ⟨code⟩ := p
  rw [ofSource]
  split
  · rename_i hnil
    simp [hnil]
  · rename_i hne
    have hcode : (placed source.toList).toArray = code ↔ code.toList = placed source.toList := by
      rw [← Array.toList_inj, eq_comm]
    simpa [hcode] using fun _ => hne

theorem sorted_offsets (h : ofSource source = .ok p) : p.offsets.Pairwise (· < ·) := by
  have hindex : source.toList.zipIdx.Pairwise (·.2 < ·.2) := by
    rw [← List.pairwise_map (R := (· < ·)), List.zipIdx_map_snd]
    exact List.pairwise_lt_range'
  rw [offsets, (ofSource_eq_ok_iff.1 h).2, List.pairwise_map]
  refine List.pairwise_filterMap.2 (hindex.imp ?_)
  intro a b hab x hx y hy
  obtain ⟨_, _, rfl⟩ := Option.map_eq_some_iff.1 hx
  obtain ⟨_, _, rfl⟩ := Option.map_eq_some_iff.1 hy
  exact hab

theorem stands_of_instruction? (h : ofSource source = .ok p) (hi : p.instruction? index = some i) :
    Stands source.toList index (p.locate index) i := by
  have hoffset := offset?_of_instruction? hi
  obtain ⟨placed, hplaced, rfl⟩ := Option.map_eq_some_iff.1 hi
  have hat : placed.offset = p.locate index := by
    rw [offset?, hplaced] at hoffset
    exact Option.some.inj hoffset
  have hcode : (Program.placed source.toList)[index]? = some placed := by
    rw [← (ofSource_eq_ok_iff.1 h).2]
    simpa using hplaced
  obtain ⟨offset, heq, hstands⟩ := stands_of_getElem?_from hcode
  rw [Nat.zero_add] at heq
  rwa [← hat, heq]

end Program

/-- The bracket that a rejection is about, with its index and its offset. -/
inductive Rejection.Accuses : Rejection → Nat → Nat → Instruction → Prop where
  | unmatchedClose {index offset : Nat} :
      Accuses (.unmatchedClose (index + 1) offset) index offset .loopClose
  | unmatchedOpen {index offset : Nat} :
      Accuses (.unmatchedOpen (index + 1) offset) index offset .loopOpen

namespace Interpreter

variable {source : String} {program : Program} {jumps : JumpTable}

theorem read_eq_ok (h : read source = .ok (program, jumps)) :
    Program.ofSource source = .ok program ∧ JumpTable.ofProgram program = .ok jumps := by
  rw [read] at h
  split at h
  · cases h
  · rename_i hprogram
    split at h
    · cases h
    · rename_i hjumps
      cases h
      exact ⟨hprogram, hjumps⟩

/-- A text is rejected because it is empty, or on account of a bracket that stands in it. -/
theorem accuses_of_read {cause : Rejection} (h : read source = .error cause) :
    cause = .empty ∨ ∃ index offset bracket, cause.Accuses index offset bracket ∧
      Program.Stands source.toList index offset bracket := by
  rw [read] at h
  split at h
  · rename_i hprogram
    cases h
    rw [Program.ofSource] at hprogram
    split at hprogram
    · cases hprogram
      exact .inl rfl
    · cases hprogram
  · rename_i p hprogram
    split at h
    · rename_i herror
      cases h
      right
      rcases JumpTable.ofProgram_eq_error herror with
        ⟨j, placed, hj, hclose, _, rfl⟩ | ⟨waiting, oldest, hwaiting, hlast, rfl⟩
      · have hi : p.instruction? j = some .loopClose := by
          rw [Program.instruction?, hj, Option.map_some, hclose]
        have hoffset : p.locate j = placed.offset := by
          rw [Program.locate, Program.offset?, hj]
          rfl
        have hstands := Program.stands_of_instruction? hprogram hi
        rw [hoffset] at hstands
        exact ⟨j, _, _, .unmatchedClose, hstands⟩
      · have hi : p.instruction? oldest = some .loopOpen := by
          rw [Program.instruction?_eq_getElem?]
          exact hwaiting.opens_of_mem (List.mem_of_getLast? hlast)
        exact ⟨oldest, _, _, .unmatchedOpen, Program.stands_of_instruction? hprogram hi⟩
    · cases h

end Interpreter

end TapeMachine
