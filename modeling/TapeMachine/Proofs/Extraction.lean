import Mathlib.Data.List.Sort
import TapeMachine.Proofs.Concatenation

/-!
# TapeMachine.Proofs.Extraction

A program is what is left of a text when everything but the instructions is taken out of it.

* `Program.HasSymbol`      — there is an instruction in the text.
* `Program.Keeps`          — the instructions of the program are those of the text, each with the
  place of its symbol, in the order of the text, and none of them is left out. There is no other
  program of which that can be said, `Keeps.unique`.
* `Program.contribution`   — what a text contributes to a longer one, which may be nothing.
* `Program.mem_placed_iff` — everything that is read off a text stands in it, and everything that
  stands in it is read off.
* `Program.ofSource_keeps` — the whole of it, with the program of a program that is written down
  without comments, and that of two texts one behind the other.
-/

namespace TapeMachine

namespace Program

/-- One of the characters is the symbol of an instruction. -/
def HasSymbol (text : List Char) : Prop := ∃ i : Instruction, i.symbol ∈ text

/-- The program consists of the instructions of the text, each with its offset. -/
structure Keeps (text : List Char) (p : Program) : Prop where
  lengths : p.instructions.length = p.offsets.length
  sorted : p.offsets.Pairwise (· < ·)
  symbol : ∀ (index : Nat) (i : Instruction) (offset : Nat), p.instructions[index]? = some i →
    p.offsets[index]? = some offset → text[offset]? = some i.symbol
  /-- No symbol is left out. -/
  complete : ∀ (offset : Nat) (i : Instruction), text[offset]? = some i.symbol → offset ∈ p.offsets

/-- What a text contributes to a longer one. A text without symbols contributes nothing. -/
def contribution (source : String) : Program :=
  match ofSource source with
  | .ok p => p
  | .error _ => empty

variable {text : List Char} {source : String} {p p' : Program} {offset : Nat}

/-! ## What is read off a text -/

theorem mem_placed_iff {x : Placed} :
    x ∈ placed text ↔ text[x.offset]? = some x.instruction.symbol := by
  rw [placed, List.mem_filterMap]
  constructor
  · rintro ⟨⟨c, offset⟩, hmem, hx⟩
    obtain ⟨i, hi, rfl⟩ := Option.map_eq_some_iff.1 hx
    obtain rfl := Instruction.ofSymbol?_eq_some_iff.1 hi
    exact List.mem_zipIdx_iff_getElem?.1 hmem
  · intro h
    exact ⟨(x.instruction.symbol, x.offset), List.mem_zipIdx_iff_getElem?.2 h, by simp⟩

theorem placed_eq_nil_iff_not_hasSymbol : placed text = [] ↔ ¬HasSymbol text := by
  rw [List.eq_nil_iff_forall_not_mem]
  constructor
  · rintro h ⟨i, hi⟩
    obtain ⟨offset, hoffset⟩ := List.mem_iff_getElem?.1 hi
    exact h ⟨i, offset⟩ (mem_placed_iff.2 hoffset)
  · intro h x hx
    exact h ⟨x.instruction, List.mem_of_getElem? (mem_placed_iff.1 hx)⟩

theorem ofSource_eq_error_iff : ofSource source = .error .empty ↔ ¬HasSymbol source.toList := by
  rw [← placed_eq_nil_iff_not_hasSymbol, ofSource]
  split <;> simp_all

theorem exists_ofSource_of_hasSymbol (h : HasSymbol source.toList) :
    ∃ p, ofSource source = .ok p :=
  ⟨⟨(placed source.toList).toArray⟩,
    ofSource_eq_ok_iff.2 ⟨mt placed_eq_nil_iff_not_hasSymbol.1 (not_not_intro h), rfl⟩⟩

theorem mem_code_iff (h : ofSource source = .ok p) {x : Placed} :
    x ∈ p.code.toList ↔ source.toList[x.offset]? = some x.instruction.symbol := by
  rw [(ofSource_eq_ok_iff.1 h).2, mem_placed_iff]

theorem keeps_of_ofSource (h : ofSource source = .ok p) : Keeps source.toList p where
  lengths := by rw [length_instructions, length_offsets]
  sorted := sorted_offsets h
  symbol index i offset hi hoffset := by
    rw [instructions, List.getElem?_map] at hi
    rw [offsets, List.getElem?_map] at hoffset
    obtain ⟨x, hx, rfl⟩ := Option.map_eq_some_iff.1 hi
    rw [hx] at hoffset
    cases hoffset
    exact (mem_code_iff h).1 (List.mem_of_getElem? hx)
  complete offset i hat := List.mem_map.2 ⟨⟨i, offset⟩, (mem_code_iff h).2 hat, rfl⟩

/-! ## There is only one such program -/

theorem code_eq_zipWith (p : Program) :
    p.code.toList = List.zipWith Placed.mk p.instructions p.offsets := by
  rw [instructions, offsets, List.zipWith_map, List.zipWith_self]
  exact (List.map_id _).symm

theorem ext_parts (hi : p.instructions = p'.instructions) (ho : p.offsets = p'.offsets) :
    p = p' := by
  have hcode : p.code.toList = p'.code.toList := by
    rw [code_eq_zipWith, code_eq_zipWith, hi, ho]
  cases p
  cases p'
  exact congrArg Program.mk (Array.toList_inj.1 hcode)

namespace Keeps

theorem exists_instruction (h : Keeps text p) {index : Nat} (ho : p.offsets[index]? = some offset) :
    ∃ i, p.instructions[index]? = some i ∧ text[offset]? = some i.symbol := by
  have hlt : index < p.instructions.length := by
    rw [h.lengths]
    exact (List.getElem?_eq_some_iff.1 ho).1
  have hi := List.getElem?_eq_getElem hlt
  exact ⟨_, hi, h.symbol index _ offset hi ho⟩

theorem mem_offsets_iff (h : Keeps text p) :
    offset ∈ p.offsets ↔ ∃ i, text[offset]? = some (Instruction.symbol i) := by
  constructor
  · intro hmem
    obtain ⟨index, ho⟩ := List.mem_iff_getElem?.1 hmem
    obtain ⟨i, _, hat⟩ := h.exists_instruction ho
    exact ⟨i, hat⟩
  · rintro ⟨i, hat⟩
    exact h.complete offset i hat

/-- The text determines the offsets, since they are sorted, and each offset its instruction. -/
theorem unique (h : Keeps text p) (h' : Keeps text p') : p = p' := by
  have ho : p.offsets = p'.offsets := h.sorted.eq_of_mem_iff h'.sorted fun offset => by
    rw [h.mem_offsets_iff, h'.mem_offsets_iff]
  have hlength : p.instructions.length = p'.instructions.length := by
    rw [h.lengths, ho, h'.lengths]
  refine ext_parts (List.ext_getElem? fun index => ?_) ho
  cases hoffset : p.offsets[index]? with
  | none =>
    have hle : p.instructions.length ≤ index := by
      rw [h.lengths]
      exact List.getElem?_eq_none_iff.1 hoffset
    rw [List.getElem?_eq_none hle, List.getElem?_eq_none (hlength ▸ hle)]
  | some offset =>
    obtain ⟨i, hi, hat⟩ := h.exists_instruction hoffset
    obtain ⟨i', hi', hat'⟩ := h'.exists_instruction (ho ▸ hoffset)
    rw [hi, hi', Instruction.symbol_injective (Option.some.inj (hat.symm.trans hat'))]

end Keeps

/-! ## Texts without comments, and texts one behind the other -/

theorem placed_symbols (is : List Instruction) :
    placed (is.map Instruction.symbol) = is.zipIdx.map fun pair => ⟨pair.1, pair.2⟩ := by
  rw [placed, List.zipIdx_map, List.filterMap_map, ← List.filterMap_eq_map]
  congr 1
  funext pair
  simp

theorem exists_ofSource_text (h : ofSource source = .ok p) :
    ∃ q, ofSource p.text = .ok q ∧ q.instructions = p.instructions ∧
      q.offsets = List.range p.size := by
  have htext : placed p.text.toList = p.instructions.zipIdx.map fun pair => ⟨pair.1, pair.2⟩ := by
    rw [text, String.toList_ofList, placed_symbols]
  have hne : placed p.text.toList ≠ [] := by
    obtain ⟨hne, hcode⟩ := ofSource_eq_ok_iff.1 h
    rw [← hcode] at hne
    simpa [htext, instructions] using hne
  refine ⟨⟨(placed p.text.toList).toArray⟩, ofSource_eq_ok_iff.2 ⟨hne, rfl⟩, ?_, ?_⟩
  · rw [instructions, htext, List.map_map]
    exact List.zipIdx_map_fst 0 p.instructions
  · rw [offsets, htext, List.map_map, ← p.length_instructions, List.range_eq_range']
    exact List.zipIdx_map_snd 0 p.instructions

theorem code_contribution (source : String) :
    (contribution source).code.toList = placed source.toList := by
  rw [contribution]
  split
  · rename_i h
    exact (ofSource_eq_ok_iff.1 h).2
  · rename_i h
    rw [ofSource] at h
    split at h
    · rename_i hnil
      rw [hnil]
      rfl
    · cases h

theorem offsets_append (p : Program) (chars : Nat) (q : Program) :
    (p.append chars q).offsets = p.offsets ++ q.offsets.map (chars + ·) := by
  simp [append, offsets, Placed.moved, Function.comp_def]

/-- Where there is a symbol in one of two texts, the contributions of both are their program. -/
theorem ofSource_append_eq (source rest : String) (h : HasSymbol (source ++ rest).toList) :
    ofSource (source ++ rest) =
      .ok ((contribution source).append source.toList.length (contribution rest)) := by
  refine ofSource_eq_ok_iff.2 ⟨mt placed_eq_nil_iff_not_hasSymbol.1 (not_not_intro h), ?_⟩
  rw [append, Array.toList_append, Array.toList_map, code_contribution, code_contribution,
    String.toList_append, placed_append]

/-- A text is rejected as empty if and only if none of its characters is the symbol of an
instruction. Any other text is a program, which consists of the instructions of the text at their
offsets, and that can be said of no other program. Written without comments it is read with the same
instructions, one at each character. The program of two texts, one behind the other, consists of
what the first contributes and, moved behind the characters of the first, what the second does. -/
theorem ofSource_keeps (source : String) :
    (ofSource source = .error .empty ↔ ¬HasSymbol source.toList) ∧
    (HasSymbol source.toList → ∃ p, ofSource source = .ok p ∧
      (∀ p', Keeps source.toList p' ↔ p' = p) ∧
      ∃ q, ofSource p.text = .ok q ∧ q.instructions = p.instructions ∧
        q.offsets = List.range p.size) ∧
    ∀ rest : String, HasSymbol (source ++ rest).toList → ∃ r, ofSource (source ++ rest) = .ok r ∧
      r.instructions = (contribution source).instructions ++ (contribution rest).instructions ∧
      r.offsets = (contribution source).offsets ++
        (contribution rest).offsets.map (source.toList.length + ·) := by
  refine ⟨ofSource_eq_error_iff, fun h => ?_, fun rest h => ?_⟩
  · obtain ⟨p, hp⟩ := exists_ofSource_of_hasSymbol h
    have hkeeps := keeps_of_ofSource hp
    refine ⟨p, hp, fun p' => ⟨fun h' => h'.unique hkeeps, ?_⟩, exists_ofSource_text hp⟩
    rintro rfl
    exact hkeeps
  · exact ⟨_, ofSource_append_eq source rest h, instructions_append _ _ _, offsets_append _ _ _⟩

/-- Behind a letter of two bytes `é+ -` has its instructions at 1 and 3. -/
theorem ofSource_keeps_letter :
    let source := "é+ -"
    HasSymbol source.toList ∧ HasSymbol ("é" ++ source).toList ∧
      ∃ p q r, ofSource source = .ok p ∧ Keeps source.toList p ∧ p.offsets = [1, 3] ∧
        ofSource p.text = .ok q ∧ q.offsets = [0, 1] ∧
        ofSource ("é" ++ source) = .ok r ∧ r.offsets = [2, 4] := by
  intro source
  have h : HasSymbol source.toList := ⟨.increment, by decide⟩
  have h' : HasSymbol ("é" ++ source).toList := ⟨.increment, by decide⟩
  have hsource : ofSource "é+ -" = .ok ⟨#[⟨.increment, 1⟩, ⟨.decrement, 3⟩]⟩ := rfl
  obtain ⟨_, hprogram, _⟩ := ofSource_keeps source
  obtain ⟨p, hp, hkeeps, q, hq, _, hoffsets⟩ := hprogram h
  obtain ⟨r, hr, _, hoffsets'⟩ := (ofSource_keeps "é").2.2 source h'
  have hshifted :
      (contribution "é").offsets ++ (contribution "é+ -").offsets.map (1 + ·) = [2, 4] := rfl
  obtain rfl := Except.ok.inj (hsource.symm.trans hp)
  exact ⟨h, h', _, q, r, hp, (hkeeps _).2 rfl, rfl, hq, hoffsets, hr, hoffsets'.trans hshifted⟩

end Program

end TapeMachine
