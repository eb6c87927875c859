import TapeMachine.Proofs.Evaluation
import TapeMachine.Proofs.Offsets
import TapeMachine.Proofs.Parallel

/-!
# TapeMachine.Proofs.Comments

What is no instruction makes no difference.

* `Program.symbols`   — the characters of a text that are instructions.
* `Program.SamePlace` — the same instruction of two texts, with the characters that it stands at.
* `Alike`             — for rejections, failures, endings, programs, interpreters and evaluations:
  they are the same for both texts but for the offsets, and each offset is that of the same
  instruction in its own text.
* `JumpTable.ofProgram_congr` — tables, and rejections up to their offsets, depend on nothing but
  the instructions.
* `Machine.parallel_alike` — so do the steps that a machine makes.
* `Interpreter.execute_alike` — texts with the same symbols are alike in all that can be asked of an
  interpreter.
-/

namespace TapeMachine

namespace Program

/-- The characters of a text that are instructions, in order. -/
def symbols (text : List Char) : List Char :=
  text.filter fun c => (Instruction.ofSymbol? c).isSome

/-- The instruction with the given index stands at these offsets of the two texts. -/
def SamePlace (text text' : List Char) (index offset offset' : Nat) : Prop :=
  ∃ i, Stands text index offset i ∧ Stands text' index offset' i

/-- The instructions are the same, and each of them stands at its own offset in each text. -/
structure Alike (text text' : List Char) (p p' : Program) : Prop where
  instructions : p.instructions = p'.instructions
  offsets : ∀ index offset offset', p.offset? index = some offset →
    p'.offset? index = some offset' → SamePlace text text' index offset offset'

end Program

/-! ## The same but for the offsets -/

inductive Rejection.Alike (text text' : List Char) : Rejection → Rejection → Prop where
  | empty : Alike text text' .empty .empty
  | unmatchedClose {index offset offset' : Nat}
      (h : Program.SamePlace text text' index offset offset') :
      Alike text text' (.unmatchedClose (index + 1) offset) (.unmatchedClose (index + 1) offset')
  | unmatchedOpen {index offset offset' : Nat}
      (h : Program.SamePlace text text' index offset offset') :
      Alike text text' (.unmatchedOpen (index + 1) offset) (.unmatchedOpen (index + 1) offset')

inductive Failure.Alike (text text' : List Char) : Failure → Failure → Prop where
  | rejected {cause cause' : Rejection} (h : cause.Alike text text' cause') :
      Alike text text' (.rejected cause) (.rejected cause')
  | overrun {ip offset offset' : Nat} (cause : Overrun)
      (h : Program.SamePlace text text' ip offset offset') :
      Alike text text' (.overrun ⟨ip, offset⟩ cause) (.overrun ⟨ip, offset'⟩ cause)
  | io {ip offset offset' : Nat} (report : String)
      (h : Program.SamePlace text text' ip offset offset') :
      Alike text text' (.io ⟨ip, offset⟩ report) (.io ⟨ip, offset'⟩ report)
  | stepLimit (limit : Nat) : Alike text text' (.stepLimit limit) (.stepLimit limit)
  | canceled : Alike text text' .canceled .canceled

inductive Ending.Alike (text text' : List Char) : Ending → Ending → Prop where
  | finished : Alike text text' .finished .finished
  | failed {cause cause' : Failure} (h : cause.Alike text text' cause') :
      Alike text text' (.failed cause) (.failed cause')
  | broken (fault : Fault) : Alike text text' (.broken fault) (.broken fault)

structure Interpreter.Alike (text text' : List Char) (it it' : Interpreter) : Prop where
  tape : it.tape = it'.tape
  program : it.program.Alike text text' it'.program
  jumps : it.jumps = it'.jumps
  pc : it.pc = it'.pc
  control : it.control = it'.control

structure Evaluation.Alike (text text' : List Char) (e e' : Evaluation) : Prop where
  ending : e.ending.Alike text text' e'.ending
  interpreter : e.interpreter.Alike text text' e'.interpreter
  input : e.input = e'.input
  /-- All that was written is the same, be it output or a table. -/
  output : e.output = e'.output

/-! ## Programs -/

namespace Program

variable {source source' : String} {p p' : Program} {index : Nat}

theorem filterMap_symbols (text : List Char) :
    (symbols text).filterMap Instruction.ofSymbol? = text.filterMap Instruction.ofSymbol? := by
  rw [symbols, List.filterMap_filter]
  congr 1
  funext c
  cases Instruction.ofSymbol? c <;> rfl

theorem map_instruction_placed (text : List Char) :
    (placed text).map (·.instruction) = (symbols text).filterMap Instruction.ofSymbol? := by
  have hplaced : (placed text).map (·.instruction) =
      (text.zipIdx.map Prod.fst).filterMap Instruction.ofSymbol? := by
    rw [placed, List.map_filterMap, List.filterMap_map]
    congr 1
    funext ⟨c, offset⟩
    simp [Function.comp_def]
  rw [filterMap_symbols, hplaced, List.zipIdx_map_fst]

theorem instructions_of_ofSource (h : ofSource source = .ok p) :
    p.instructions = (symbols source.toList).filterMap Instruction.ofSymbol? := by
  rw [instructions, (ofSource_eq_ok_iff.1 h).2, map_instruction_placed]

theorem placed_eq_nil_iff (text : List Char) : placed text = [] ↔ symbols text = [] := by
  rw [← List.map_eq_nil_iff (f := (·.instruction)), map_instruction_placed]
  constructor
  · intro h
    rw [List.filterMap_eq_nil_iff] at h
    refine List.eq_nil_iff_forall_not_mem.2 fun c hc => ?_
    have hsymbol := (List.mem_filter.1 hc).2
    rw [h c hc] at hsymbol
    cases hsymbol
  · intro h
    rw [h]
    rfl

theorem exists_ofSource (h : symbols source.toList ≠ []) : ∃ p, ofSource source = .ok p :=
  ⟨⟨(placed source.toList).toArray⟩,
    ofSource_eq_ok_iff.2 ⟨mt (placed_eq_nil_iff source.toList).1 h, rfl⟩⟩

theorem exists_instruction?_zero (h : ofSource source = .ok p) :
    ∃ i, p.instruction? 0 = some i := by
  obtain ⟨hne, hcode⟩ := ofSource_eq_ok_iff.1 h
  refine exists_instruction? ?_
  rw [size, ← Array.length_toList, hcode]
  exact List.length_pos_iff.2 hne

theorem size_eq (h : p.instructions = p'.instructions) : p.size = p'.size := by
  rw [← p.length_instructions, h, p'.length_instructions]

theorem instruction?_eq (h : p.instructions = p'.instructions) (index : Nat) :
    p.instruction? index = p'.instruction? index := by
  rw [instruction?_eq_getElem?, h, instruction?_eq_getElem?]

section

variable (hp : ofSource source = .ok p) (hp' : ofSource source' = .ok p')
  (h : p.instructions = p'.instructions)

include hp hp' h

theorem samePlace {i : Instruction} (hi : p.instruction? index = some i) :
    SamePlace source.toList source'.toList index (p.locate index) (p'.locate index) :=
  ⟨i, stands_of_instruction? hp hi,
    stands_of_instruction? hp' ((instruction?_eq h index).symm.trans hi)⟩

theorem alike : p.Alike source.toList source'.toList p' where
  instructions := h
  offsets index offset offset' ho ho' := by
    obtain ⟨placed, hplaced, _⟩ := Option.map_eq_some_iff.1 ho
    have hi : p.instruction? index = some placed.instruction := by
      rw [instruction?, hplaced]
      rfl
    have hsame := samePlace hp hp' h hi
    rwa [locate, locate, ho, ho'] at hsame

end

end Program

/-! ## Tables -/

namespace JumpTable

variable {p p' : Program}

theorem Scan.visit_congr {placed placed' : Placed}
    (h : placed.instruction = placed'.instruction) (index : Nat) (s : Scan) :
    (∃ s', s.visit index placed = .ok s' ∧ s.visit index placed' = .ok s') ∨
      s.visit index placed = .error (.unmatchedClose (index + 1) placed.offset) ∧
        s.visit index placed' = .error (.unmatchedClose (index + 1) placed'.offset) := by
  obtain ⟨targets, pairs, waiting⟩ := s
  simp only [Scan.visit, ← h]
  cases placed.instruction with
  | loopClose =>
    cases waiting with
    | nil => exact .inr ⟨rfl, rfl⟩
    | cons opening outer => exact .inl ⟨_, rfl, rfl⟩
  | _ => exact .inl ⟨_, rfl, rfl⟩

theorem Scan.visitAll_congr {code code' : List Placed}
    (h : code.map (·.instruction) = code'.map (·.instruction)) (index : Nat) (s : Scan) :
    (∃ s', visitAll index code s = .ok s' ∧ visitAll index code' s = .ok s') ∨
      ∃ k offset offset', visitAll index code s = .error (.unmatchedClose (k + 1) offset) ∧
        visitAll index code' s = .error (.unmatchedClose (k + 1) offset') := by
  induction code generalizing code' index s with
  | nil =>
    obtain rfl : code' = [] := List.map_eq_nil_iff.1 h.symm
    exact .inl ⟨s, rfl, rfl⟩
  | cons placed rest ih =>
    cases code' with
    | nil => cases h
    | cons placed' rest' =>
      rw [List.map_cons, List.map_cons, List.cons.injEq] at h
      rw [visitAll, visitAll]
      rcases visit_congr h.1 index s with ⟨s', hs, hs'⟩ | ⟨hs, hs'⟩
      · rw [hs, hs']
        exact ih h.2 (index + 1) s'
      · rw [hs, hs']
        exact .inr ⟨index, _, _, rfl, rfl⟩

/-- Programs with the same instructions have the same table, or are rejected on account of the same
bracket. -/
theorem ofProgram_congr (h : p.instructions = p'.instructions) :
    (∃ jumps, ofProgram p = .ok jumps ∧ ofProgram p' = .ok jumps) ∨
      ∃ cause cause' index bracket offset offset',
        ofProgram p = .error cause ∧ ofProgram p' = .error cause' ∧
          cause.Accuses index offset bracket ∧ cause'.Accuses index offset' bracket := by
  simp only [ofProgram, ← Program.size_eq h]
  rcases Scan.visitAll_congr h 0 (Scan.start p.size) with
    ⟨s, hs, hs'⟩ | ⟨k, offset, offset', hs, hs'⟩
  · simp only [hs, hs']
    cases s.waiting.getLast? with
    | none => exact .inl ⟨_, rfl, rfl⟩
    | some opening => exact .inr ⟨_, _, _, _, _, _, rfl, rfl, .unmatchedOpen, .unmatchedOpen⟩
  · simp only [hs, hs']
    exact .inr ⟨_, _, _, _, _, _, rfl, rfl, .unmatchedClose, .unmatchedClose⟩

end JumpTable

namespace Rejection

theorem Accuses.unique {cause : Rejection} {index index' offset offset' : Nat}
    {i i' : Instruction} (h : cause.Accuses index offset i) (h' : cause.Accuses index' offset' i') :
    index = index' ∧ offset = offset' ∧ i = i' := by
  cases h <;> cases h' <;> exact ⟨rfl, rfl, rfl⟩

theorem alike_of_accuses {text text' : List Char} {cause cause' : Rejection}
    {index offset offset' : Nat} {bracket : Instruction} (h : cause.Accuses index offset bracket)
    (h' : cause'.Accuses index offset' bracket)
    (hsame : Program.SamePlace text text' index offset offset') :
    cause.Alike text text' cause' := by
  cases h with
  | unmatchedClose =>
    cases h'
    exact .unmatchedClose hsame
  | unmatchedOpen =>
    cases h'
    exact .unmatchedOpen hsame

end Rejection

namespace Interpreter

variable {source source' : String}

theorem stands_of_accuses {cause : Rejection} {index offset : Nat} {bracket : Instruction}
    (h : read source = .error cause) (haccuses : cause.Accuses index offset bracket) :
    Program.Stands source.toList index offset bracket := by
  rcases accuses_of_read h with rfl | ⟨index', offset', bracket', haccuses', hstands⟩
  · cases haccuses
  · obtain ⟨rfl, rfl, rfl⟩ := haccuses.unique haccuses'
    exact hstands

theorem read_congr (h : Program.symbols source.toList = Program.symbols source'.toList) :
    (∃ program program' jumps, read source = .ok (program, jumps) ∧
        read source' = .ok (program', jumps) ∧ program.instructions = program'.instructions) ∨
      ∃ cause cause', read source = .error cause ∧ read source' = .error cause' ∧
        cause.Alike source.toList source'.toList cause' := by
  by_cases hempty : Program.symbols source.toList = []
  · have hnil := (Program.placed_eq_nil_iff source.toList).2 hempty
    have hnil' := (Program.placed_eq_nil_iff source'.toList).2 (h ▸ hempty)
    exact .inr ⟨.empty, .empty, by simp only [read, Program.ofSource, hnil],
      by simp only [read, Program.ofSource, hnil'], .empty⟩
  · obtain ⟨p, hp⟩ := Program.exists_ofSource hempty
    obtain ⟨p', hp'⟩ := Program.exists_ofSource (h ▸ hempty)
    have hinstructions : p.instructions = p'.instructions := by
      rw [Program.instructions_of_ofSource hp, h, Program.instructions_of_ofSource hp']
    rcases JumpTable.ofProgram_congr hinstructions with
      ⟨jumps, hj, hj'⟩ | ⟨cause, cause', index, bracket, offset, offset', hj, hj', ha, ha'⟩
    · exact .inl ⟨p, p', jumps, by simp only [read, hp, hj], by simp only [read, hp', hj'],
        hinstructions⟩
    · have hread : read source = .error cause := by simp only [read, hp, hj]
      have hread' : read source' = .error cause' := by simp only [read, hp', hj']
      have hsame : Program.SamePlace source.toList source'.toList index offset offset' :=
        ⟨bracket, stands_of_accuses hread ha, stands_of_accuses hread' ha'⟩
      exact .inr ⟨cause, cause', hread, hread', Rejection.alike_of_accuses ha ha' hsame⟩

end Interpreter

/-! ## Steps -/

namespace Machine

variable {source source' : String} {p p' : Program} {jumps : JumpTable} {mode : Mode}
  {m : Machine} {ending : Ending}

/-- What is pending points to no character. -/
theorem alike_of_pending {job : Job} (h : m.pending job = .error ending) (text text' : List Char) :
    ending.Alike text text' ending := by
  rcases pending_eq_error h with ⟨rfl, _⟩ | ⟨_, ⟨rfl, _⟩ | ⟨limit, rfl, _⟩⟩
  · exact .finished
  · exact .failed .canceled
  · exact .failed (.stepLimit limit)

theorem alike_of_trouble {text text' : List Char} {ip offset offset' : Nat} (trouble : Trouble)
    (h : Program.SamePlace text text' ip offset offset') :
    (trouble.failure ⟨ip, offset⟩).Alike text text' (trouble.failure ⟨ip, offset'⟩) := by
  cases trouble with
  | overrun cause => exact .overrun cause h
  | io report => exact .io report h

section

variable (hp : Program.ofSource source = .ok p) (hp' : Program.ofSource source' = .ok p')
  (h : p.instructions = p'.instructions)

include hp hp' h

/-- Only the failure of a step shows which of the texts was loaded, and there the two blame the same
instruction. -/
theorem parallel_alike (jumps : JumpTable) (mode : Mode) :
    Parallel ⟨p, jumps, mode⟩ ⟨p', jumps, mode⟩ (Ending.Alike source.toList source'.toList) Eq := by
  rintro m _ rfl
  refine matches_advance rfl (Program.instruction?_eq h m.pc).symm (fun _ => rfl)
    (fun ending hending => alike_of_pending hending _ _) (.broken .unpairedBracket) ?_
  intro i trouble hi
  exact .failed (alike_of_trouble trouble (Program.samePlace hp hp' h hi))

/-- The lines above a table are the same, and one that is refused is blamed on the instruction under
the counter. -/
theorem run_alike (jumps : JumpTable) (mode : Mode) {i : Instruction}
    (hi : p.instruction? m.pc = some i) (traced traced' : Bool) (fuel : Nat) :
    Option.Rel (Finish.Matches (Ending.Alike source.toList source'.toList) Eq)
      (m.run ⟨p, jumps, mode⟩ traced fuel) (m.run ⟨p', jumps, mode⟩ traced' fuel) := by
  have hstill := still_begin ⟨p, jumps, mode⟩ m
  cases hb : m.begin ⟨p, jumps, mode⟩ with
  | mk m₁ trouble =>
    rw [hb] at hstill
    have hb' : m.begin ⟨p', jumps, mode⟩ = (m₁, trouble) := hb
    cases trouble with
    | none => exact (parallel_alike hp hp' h jumps mode).run hb hb' rfl traced traced' fuel
    | some trouble =>
      rw [run, run, hb, hb']
      have hplace := Program.samePlace hp hp' h hi
      rw [← hstill.pc] at hplace
      exact .some ⟨.failed (alike_of_trouble trouble hplace), rfl⟩

end

end Machine

namespace Interpreter

variable {source source' : String}

/-- What is left of an interpreter that rejects a text holds no offsets. -/
theorem alike_reset (text text' : List Char) (it : Interpreter) :
    it.reset.Alike text text' it.reset where
  tape := rfl
  program := ⟨rfl, nofun⟩
  jumps := rfl
  pc := rfl
  control := rfl

theorem check_alike (h : Program.symbols source.toList = Program.symbols source'.toList)
    (it : Interpreter) :
    ((∃ summary, (it.check source).1 = .ok summary ∧ (it.check source').1 = .ok summary) ∨
        ∃ cause cause', (it.check source).1 = .error cause ∧ (it.check source').1 = .error cause' ∧
          cause.Alike source.toList source'.toList cause') ∧
      (it.check source).2.1.Alike source.toList source'.toList (it.check source').2.1 := by
  rcases read_congr h with
    ⟨p, p', jumps, hr, hr', hinstructions⟩ | ⟨cause, cause', hr, hr', hcause⟩
  · simp only [check, hr, hr']
    refine ⟨.inl ⟨summary p jumps, rfl, ?_⟩, rfl, ?_, rfl, rfl, rfl⟩
    · rw [summary, summary, Program.size_eq hinstructions]
    · exact Program.alike (read_eq_ok hr).1 (read_eq_ok hr').1 hinstructions
  · simp only [check, hr, hr']
    exact ⟨.inr ⟨cause, cause', rfl, rfl, hcause⟩, alike_reset _ _ it⟩

/-- Texts with the same symbols are alike. A check finds the same program in both, and leaves the
same interpreter behind, or both are rejected on account of the same bracket. Their evaluations, be
they live or tables, come to the same with the same fuel, whatever the interpreter, the input and
the output, or both run out of it. The offsets alone differ, and each is that of the same
instruction in its own text. -/
theorem execute_alike (h : Program.symbols source.toList = Program.symbols source'.toList)
    (it : Interpreter) :
    ((∃ summary, (it.check source).1 = .ok summary ∧ (it.check source').1 = .ok summary) ∨
        ∃ cause cause', (it.check source).1 = .error cause ∧ (it.check source').1 = .error cause' ∧
          cause.Alike source.toList source'.toList cause') ∧
      (it.check source).2.1.Alike source.toList source'.toList (it.check source').2.1 ∧
      ∀ mode traced traced' fuel input output,
        Option.Rel (Evaluation.Alike source.toList source'.toList)
          (it.execute mode traced fuel source input output)
          (it.execute mode traced' fuel source' input output) := by
  obtain ⟨hchecked, hleft⟩ := check_alike h it
  refine ⟨hchecked, hleft, ?_⟩
  intro mode traced traced' fuel input output
  rcases read_congr h with
    ⟨p, p', jumps, hr, hr', hinstructions⟩ | ⟨cause, cause', hr, hr', hcause⟩
  · have hp := (read_eq_ok hr).1
    have hp' := (read_eq_ok hr').1
    obtain ⟨i, hi⟩ := Program.exists_instruction?_zero hp
    have hrun := Machine.run_alike (m := it.reset.machine input output) hp hp' hinstructions jumps
      mode hi traced traced' fuel
    rw [execute_of_ok hr, execute_of_ok hr']
    revert hrun
    generalize Machine.run ⟨p, jumps, mode⟩ traced fuel _ = r
    generalize Machine.run ⟨p', jumps, mode⟩ traced' fuel _ = r'
    intro hrun
    cases hrun with
    | none => exact .none
    | @some f f' hf =>
      obtain ⟨hending, hmachine⟩ := hf
      refine .some ⟨hending, ⟨?_, Program.alike hp hp' hinstructions, rfl, ?_, ?_⟩, ?_, ?_⟩ <;>
        simp only [ofMachine, hmachine]
  · rw [execute_of_error hr, execute_of_error hr']
    exact .some ⟨.failed (.rejected hcause), alike_reset _ _ it, rfl, rfl⟩

/-- The move that overruns is at 3 in `x>é>` and at 1 in `>>`, and the second instruction in both.
-/
theorem execute_alike_overrun :
    let source := "x>é>"
    let source' := ">>"
    let it := Interpreter.new 2 .strict
    Program.symbols source.toList = Program.symbols source'.toList ∧
      ∃ e e', it.execute .live true 3 source [] {} = some e ∧
        it.execute .live false 3 source' [] {} = some e' ∧
        e.ending = .failed (.overrun ⟨1, 3⟩ (.pastLast 1)) ∧
        e'.ending = .failed (.overrun ⟨1, 1⟩ (.pastLast 1)) ∧
        e.Alike source.toList source'.toList e' := by
  intro source source' it
  have h : Program.symbols source.toList = Program.symbols source'.toList := by decide
  obtain ⟨_, _, hevaluations⟩ := execute_alike h it
  have hrel := hevaluations .live true false 3 [] {}
  have hrun : (it.execute .live true 3 source [] {}).map (·.ending) =
    some (.failed (.overrun ⟨1, 3⟩ (.pastLast 1))) := by decide
  have hrun' : (it.execute .live false 3 source' [] {}).map (·.ending) =
    some (.failed (.overrun ⟨1, 1⟩ (.pastLast 1))) := by decide
  obtain ⟨e, he, hending⟩ := Option.map_eq_some_iff.1 hrun
  obtain ⟨e', he', hending'⟩ := Option.map_eq_some_iff.1 hrun'
  rw [he, he'] at hrel
  cases hrel with
  | some halike => exact ⟨h, e, e', he, he', hending, hending', halike⟩

end Interpreter

end TapeMachine
