import TapeMachine.Machine.Step
import TapeMachine.Proofs.Offsets

/-!
# TapeMachine.Proofs.Concatenation

The program and the table of two texts, one behind the other.

* `Program.append`   — a program behind another one. Its offsets are counted from the beginning of
  the first text.
* `JumpTable.append` — the table behind another one, the brackets of which come first.
* `Program.ofSource_append`, `JumpTable.ofProgram_append` — what is read from two texts, one behind
  the other, is that of the first and behind it that of the second.
* `Job.append`       — the work on both. No jump leads from one text into the other,
  `flow?_append_left` and `flow?_append_right`.
-/

namespace TapeMachine

/-- The instruction with `chars` more characters in front of it. -/
def Placed.moved (chars : Nat) (placed : Placed) : Placed :=
  { placed with offset := chars + placed.offset }

namespace Program

/-- The second program behind the first, whose text has `chars` characters. -/
def append (p : Program) (chars : Nat) (q : Program) : Program :=
  ⟨p.code ++ q.code.map (Placed.moved chars)⟩

variable {P Q : String} {p q : Program} {chars index : Nat}

theorem size_append (p : Program) (chars : Nat) (q : Program) :
    (p.append chars q).size = p.size + q.size := by
  simp [append, size]

theorem instructions_append (p : Program) (chars : Nat) (q : Program) :
    (p.append chars q).instructions = p.instructions ++ q.instructions := by
  simp [append, instructions, Placed.moved, Function.comp_def]

theorem getElem?_code_append_left (h : index < p.size) (chars : Nat) (q : Program) :
    (p.append chars q).code[index]? = p.code[index]? :=
  Array.getElem?_append_left h

theorem getElem?_code_append_right (p : Program) (chars : Nat) (q : Program) (index : Nat) :
    (p.append chars q).code[p.size + index]? = q.code[index]?.map (Placed.moved chars) := by
  have hle : p.code.size ≤ p.size + index := Nat.le_add_right _ _
  rw [append, Array.getElem?_append_right hle, Array.getElem?_map, size, Nat.add_sub_cancel_left]

theorem instruction?_append_left (h : index < p.size) (chars : Nat) (q : Program) :
    (p.append chars q).instruction? index = p.instruction? index := by
  rw [instruction?, instruction?, getElem?_code_append_left h]

theorem instruction?_append_right (p : Program) (chars : Nat) (q : Program) (index : Nat) :
    (p.append chars q).instruction? (p.size + index) = q.instruction? index := by
  rw [instruction?, instruction?, getElem?_code_append_right, Option.map_map]
  rfl

theorem locate_append_left (h : index < p.size) (chars : Nat) (q : Program) :
    (p.append chars q).locate index = p.locate index := by
  rw [locate, locate, offset?, offset?, getElem?_code_append_left h]

theorem locate_append_right {i : Instruction} (h : q.instruction? index = some i) (p : Program)
    (chars : Nat) : (p.append chars q).locate (p.size + index) = chars + q.locate index := by
  obtain ⟨placed, hplaced, _⟩ := Option.map_eq_some_iff.1 h
  simp only [locate, offset?, getElem?_code_append_right, hplaced]
  rfl

theorem placed_append (text text' : List Char) :
    placed (text ++ text') = placed text ++ (placed text').map (Placed.moved text.length) := by
  simp only [placed, List.zipIdx_append, List.filterMap_append, Nat.zero_add]
  congr 1
  rw [List.zipIdx_eq_map_add, List.filterMap_map, List.map_filterMap]
  congr 1
  funext ⟨c, offset⟩
  simp only [Function.comp_apply, Option.map_map]
  rfl

theorem ofSource_append (hp : ofSource P = .ok p) (hq : ofSource Q = .ok q) :
    ofSource (P ++ Q) = .ok (p.append P.length q) := by
  obtain ⟨hne, hcode⟩ := ofSource_eq_ok_iff.1 hp
  obtain ⟨_, hcode'⟩ := ofSource_eq_ok_iff.1 hq
  rw [ofSource_eq_ok_iff, String.toList_append, placed_append, String.length_toList]
  refine ⟨List.append_ne_nil_of_left_ne_nil hne _, ?_⟩
  rw [append, Array.toList_append, Array.toList_map, hcode, hcode']

end Program

namespace JumpTable

/-- The second table behind the first, whose program has `size` instructions. -/
def append (t : JumpTable) (size : Nat) (u : JumpTable) : JumpTable :=
  ⟨t.targets ++ u.targets.map (Option.map (size + ·)), t.pairs + u.pairs⟩

variable {p q : Program} {t u : JumpTable} {i j : Nat}

theorem size_targets (h : ofProgram p = .ok t) : t.targets.size = p.size := by
  obtain ⟨s, hs, _, rfl⟩ := exists_scan h
  rw [← p.length_instructions]
  exact hs.size

theorem target?_append_left (h : i < t.targets.size) (size : Nat) (u : JumpTable) :
    (t.append size u).target? i = t.target? i := by
  rw [target?, target?, append, Array.getElem?_append_left h]

theorem target?_append_right (t : JumpTable) (size : Nat) (u : JumpTable) (i : Nat) :
    (t.append size u).target? (t.targets.size + i) = (u.target? i).map (size + ·) := by
  rw [target?, target?, append, Array.getElem?_append_right (Nat.le_add_right _ _),
    Array.getElem?_map, Nat.add_sub_cancel_left]
  cases u.targets[i]? with
  | none => rfl
  | some target => rfl

/-- Tables of the same size are the same if the same pairs stand in them. -/
theorem ext_target? (hsize : t.targets.size = u.targets.size) (hpairs : t.pairs = u.pairs)
    (htarget : ∀ i < t.targets.size, t.target? i = u.target? i) : t = u := by
  obtain ⟨targets, pairs⟩ := t
  obtain ⟨targets', pairs'⟩ := u
  obtain rfl : pairs = pairs' := hpairs
  obtain rfl : targets = targets' := by
    refine Array.ext hsize fun i hi hi' => ?_
    have h := htarget i hi
    simpa [target?, hi, hi'] using h
  rfl

/-- What stands at a place of a table goes with the instruction to another program, if the partner
goes with it. -/
theorem target?_carry {f : Nat → Nat} {k : Nat} (ht : ofProgram p = .ok t)
    (hu : ofProgram q = .ok u) (hat : q.instructions[k]? = p.instructions[i]?)
    (hpartner : ∀ j, Partners p.instructions i j → Partners q.instructions k (f j)) :
    u.target? k = (t.target? i).map f := by
  cases hi : t.target? i with
  | some j =>
    have hp := (ofProgram_target?_iff ht).1 hi
    exact (ofProgram_target?_iff hu).2 (hpartner j hp)
  | none =>
    rw [Option.map_none, ← Option.not_isSome_iff_eq_none, target?_isSome_iff hu, hat,
      ← target?_isSome_iff ht, hi]
    simp

theorem ofProgram_append (ht : ofProgram p = .ok t) (hu : ofProgram q = .ok u) (chars : Nat) :
    ofProgram (p.append chars q) = .ok (t.append p.size u) := by
  have hinstructions := p.instructions_append chars q
  have hbalanced : Balanced (p.append chars q).instructions := by
    rw [hinstructions]
    exact (balanced_of_ofProgram ht).append (balanced_of_ofProgram hu)
  obtain ⟨v, hv⟩ := exists_ofProgram_iff.2 hbalanced
  have htsize := size_targets ht
  have husize := size_targets hu
  have hvsize := size_targets hv
  rw [Program.size_append] at hvsize
  rw [hv]
  congr 1
  refine ext_target? ?_ ?_ fun i hi => ?_
  · simp [append, hvsize, htsize, husize]
  · rw [pairs_of_ofProgram hv, hinstructions, List.count_append, append, pairs_of_ofProgram ht,
      pairs_of_ofProgram hu]
  · by_cases hlt : i < p.size
    · have hat : (p.append chars q).instructions[i]? = p.instructions[i]? := by
        rw [hinstructions, List.getElem?_append_left (by rwa [p.length_instructions])]
      rw [target?_append_left (by rwa [htsize]), target?_carry ht hv hat (f := id)]
      · exact Option.map_id_apply
      · intro j hp
        rw [hinstructions]
        exact hp.append_right _
    · obtain ⟨k, rfl⟩ := Nat.exists_eq_add_of_le (Nat.le_of_not_lt hlt)
      have hat : (p.append chars q).instructions[p.size + k]? = q.instructions[k]? := by
        rw [← Program.instruction?_eq_getElem?, ← Program.instruction?_eq_getElem?,
          Program.instruction?_append_right]
      rw [← htsize, target?_append_right, htsize]
      refine target?_carry hu hv hat fun j hp => ?_
      rw [hinstructions, ← p.length_instructions]
      exact hp.append_left _

end JumpTable

/-! ## The work of two texts -/

/-- Where an instruction stands with `size` more instructions and `chars` more characters in front
of it. -/
def Site.relocated (size chars : Nat) (site : Site) : Site := ⟨size + site.ip, chars + site.offset⟩

def Failure.relocated (size chars : Nat) : Failure → Failure
  | rejected cause => rejected cause
  | overrun site cause => overrun (site.relocated size chars) cause
  | io site text => io (site.relocated size chars) text
  | stepLimit limit => stepLimit limit
  | canceled => canceled

def Ending.relocated (size chars : Nat) : Ending → Ending
  | finished => finished
  | failed cause => failed (cause.relocated size chars)
  | broken fault => broken fault

def Flow.relocated (size : Nat) : Flow → Flow
  | onward => onward
  | past closing => past (size + closing)
  | back opening => back (size + opening)

theorem Flow.counter_relocated (size ip : Nat) (flow : Flow) :
    (flow.relocated size).counter (size + ip) = size + flow.counter ip := by
  cases flow <;> rfl

theorem Trouble.relocated_failure (size chars : Nat) (site : Site) (trouble : Trouble) :
    (trouble.failure site).relocated size chars = trouble.failure (site.relocated size chars) := by
  cases trouble <;> rfl

namespace Job

/-- The work on the second text behind that on the first, which has `chars` characters. -/
def append (first : Job) (chars : Nat) (second : Job) : Job :=
  ⟨first.program.append chars second.program,
    first.jumps.append first.program.size second.jumps, first.mode⟩

variable {first second : Job} {ip : Nat} {i : Instruction}

theorem site_append_left (h : ip < first.program.size) (chars : Nat) (second : Job) :
    (first.append chars second).site ip = first.site ip := by
  rw [site, site, append, Program.locate_append_left h]

theorem site_append_right (hi : second.program.instruction? ip = some i) (first : Job)
    (chars : Nat) :
    (first.append chars second).site (first.program.size + ip) =
      (second.site ip).relocated first.program.size chars := by
  rw [site, append, Program.locate_append_right hi]
  rfl

section

variable (hsize : first.jumps.targets.size = first.program.size)

include hsize

/-- No jump leads out of the first text. -/
theorem flow?_append_left (h : ip < first.program.size) (chars : Nat) (second : Job) (cell : UInt8)
    (i : Instruction) : (first.append chars second).flow? ip cell i = first.flow? ip cell i := by
  have htarget : (first.append chars second).jumps.target? ip = first.jumps.target? ip :=
    JumpTable.target?_append_left (by rwa [hsize]) _ _
  cases i <;> simp only [flow?, htarget]

/-- No jump leads from the second text into the first. -/
theorem flow?_append_right (chars : Nat) (second : Job) (ip : Nat) (cell : UInt8)
    (i : Instruction) :
    (first.append chars second).flow? (first.program.size + ip) cell i =
      (second.flow? ip cell i).map (Flow.relocated first.program.size) := by
  have htarget : (first.append chars second).jumps.target? (first.program.size + ip) =
      (second.jumps.target? ip).map (first.program.size + ·) := by
    have hright := first.jumps.target?_append_right first.program.size second.jumps ip
    rwa [hsize] at hright
  cases i with
  | loopOpen =>
    simp only [flow?, htarget]
    split
    · cases second.jumps.target? ip <;> rfl
    · rfl
  | loopClose =>
    simp only [flow?, htarget]
    split
    · rfl
    · cases second.jumps.target? ip <;> rfl
  | _ => rfl

end

end Job

namespace Interpreter

variable {P Q : String} {p q : Program} {t u : JumpTable}

theorem read_append (hp : read P = .ok (p, t)) (hq : read Q = .ok (q, u)) :
    read (P ++ Q) = .ok (p.append P.length q, t.append p.size u) := by
  obtain ⟨hp, ht⟩ := read_eq_ok hp
  obtain ⟨hq, hu⟩ := read_eq_ok hq
  simp only [read, Program.ofSource_append hp hq, JumpTable.ofProgram_append ht hu]

end Interpreter

end TapeMachine
