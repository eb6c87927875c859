import TapeMachine.Proofs.Blame
import TapeMachine.Proofs.History
import TapeMachine.Proofs.Offsets
import TapeMachine.Proofs.Resumption
import TapeMachine.Report

/-!
# TapeMachine.Proofs.Location

Failures point at the character that is to blame.

* `Report.Points`    — a report that ends with a line of the text and a line with a caret, which
  stands below a given symbol.
* `Report.points_context` — that is so of every report about a symbol of a text, if the text fits
  into memory.
* `Failure.Accuses`  — the instruction that a failure is about, with its index and its offset.
* `Interpreter.executes_accuses` — the whole of it: a failure with an offset accuses the
  instruction that stands there, and its report points at it.
-/

namespace TapeMachine

theorem length_le_utf8ByteSize_ofList (text : List Char) :
    text.length ≤ (String.ofList text).utf8ByteSize := by
  induction text with
  | nil => exact Nat.zero_le _
  | cons c rest ih =>
    have hcons : String.ofList (c :: rest) = String.singleton c ++ String.ofList rest := by
      rw [← String.toList_inj]
      simp
    have hpos := c.utf8Size_pos
    rw [hcons, String.utf8ByteSize_append, String.utf8ByteSize_singleton, List.length_cons]
    omega

theorem length_toList_le_utf8ByteSize (s : String) : s.toList.length ≤ s.utf8ByteSize := by
  have hlength := length_le_utf8ByteSize_ofList s.toList
  rwa [String.ofList_toList] at hlength

namespace Report

/-- Behind its headline the report has a line of the text and a line with a caret. The caret stands
below the symbol. -/
def Points (symbol : Char) (shown : List Char) (headline report : String) : Prop :=
  '\n' ∉ shown ∧ ∃ column, shown[column]? = some symbol ∧
    report.toList = headline.toList ++ '\n' :: shown ++ '\n' :: List.replicate column ' ' ++
      ['^', '\n']

variable {code : String} {text : List Char} {position : Nat} {i : Instruction}

theorem flatten_ne_newline (c : Char) : flatten c ≠ '\n' := by
  rw [flatten]
  split
  · decide
  · rename_i hblank
    rintro rfl
    exact hblank (by decide)

theorem flatten_symbol (i : Instruction) : flatten i.symbol = i.symbol := by
  cases i <;> decide

theorem newline_not_mem_window (text : List Char) (position : Nat) :
    '\n' ∉ window text position := by
  intro h
  obtain ⟨c, _, hc⟩ := List.mem_map.1 h
  exact flatten_ne_newline c hc

/-- As long as positions do not wrap around, the window holds the character it is about. Near the
beginning of a text the window begins with it, near the end it is cut off behind the character. -/
theorem getElem?_window {c : Char} (hposition : position + radius + 1 < Text.wordSize)
    (h : text[position]? = some c) :
    (window text position)[position - windowStart position]? = some (flatten c) := by
  have hlt := (List.getElem?_eq_some_iff.1 h).1
  have hend : position < windowEnd position text.length := by
    rw [windowEnd, Nat.mod_eq_of_lt hposition]
    omega
  have hstart : windowStart position ≤ position := Nat.sub_le _ _
  have hinside : position - windowStart position <
      windowEnd position text.length - windowStart position := by omega
  have hback : windowStart position + (position - windowStart position) = position := by omega
  simp only [window]
  rw [List.getElem?_map, List.getElem?_take_of_lt hinside, List.getElem?_drop, hback, h,
    Option.map_some]

theorem points_context (headline : String) (hsize : code.utf8ByteSize ≤ Tape.maxCapacity)
    (h : code.toList[position]? = some i.symbol) :
    Points i.symbol (' ' :: ' ' :: window code.toList position) headline
      (context headline code position) := by
  have hlt := (List.getElem?_eq_some_iff.1 h).1
  have hlength := length_toList_le_utf8ByteSize code
  have hposition : position + radius + 1 < Text.wordSize := by
    simp only [Tape.maxCapacity, radius, Text.wordSize] at hsize ⊢
    omega
  have hwindow := getElem?_window hposition h
  rw [flatten_symbol] at hwindow
  refine ⟨by simpa using newline_not_mem_window code.toList position,
    position - windowStart position + 2, hwindow, ?_⟩
  simp [context, List.replicate_succ]

end Report

/-- What a failure is about: the instruction, its index and its offset. -/
inductive Failure.Accuses : Failure → Nat → Nat → Instruction → Prop where
  | rejected {cause : Rejection} {index offset : Nat} {bracket : Instruction}
      (h : cause.Accuses index offset bracket) : Accuses (.rejected cause) index offset bracket
  | pastLast {index offset pointer : Nat} :
      Accuses (.overrun ⟨index, offset⟩ (.pastLast pointer)) index offset .moveRight
  | belowFirst {index offset : Nat} :
      Accuses (.overrun ⟨index, offset⟩ .belowFirst) index offset .moveLeft
  | io {index offset : Nat} {text : String} {i : Instruction} (h : i.Transfers) :
      Accuses (.io ⟨index, offset⟩ text) index offset i

namespace Failure

variable {cause : Failure} {index offset : Nat} {i : Instruction}

theorem Accuses.offset? (h : cause.Accuses index offset i) : cause.offset? = some offset := by
  cases h with
  | rejected h => cases h <;> rfl
  | _ => rfl

theorem accuses_of_blames {trouble : Trouble} {t : Tape} (h : trouble.Blames t i) (site : Site) :
    (trouble.failure site).Accuses site.ip site.offset i := by
  cases h with
  | overrun _ hexceeds =>
    cases hexceeds with
    | pastLast _ => exact .pastLast
    | belowFirst _ => exact .belowFirst
  | io h => exact .io h

end Failure

namespace Interpreter

variable {source : String} {input input' : Input} {output output' : Output}
  {it it' : Interpreter} {cause : Failure} {offset : Nat}

theorem exists_accuses
    (h : Executes .live source input output it (.failed cause) it' input' output')
    (hoffset : cause.offset? = some offset) :
    ∃ index i, cause.Accuses index offset i ∧ Program.Stands source.toList index offset i := by
  cases h with
  | rejected hread =>
    rcases accuses_of_read hread with rfl | ⟨index, at', bracket, haccuses, hstands⟩
    · cases hoffset
    · have haccuses' := Failure.Accuses.rejected haccuses
      cases haccuses'.offset?.symm.trans hoffset
      exact ⟨index, bracket, haccuses', hstands⟩
  | @ran program jumps _ _ hread hcall =>
    obtain ⟨last, _, hstop⟩ := hcall.proceeds rfl
    obtain ⟨i, trouble, hi, _, rfl, hblames⟩ := Machine.blamed_of_stop rfl hstop hoffset
    have haccuses := Failure.accuses_of_blames hblames (Job.site ⟨program, jumps, .live⟩ last.pc)
    have hi' := (Machine.pending_eq_ok_iff.1 hi).1
    cases haccuses.offset?.symm.trans hoffset
    exact ⟨_, i, haccuses, Program.stands_of_instruction? (read_eq_ok hread).1 hi'⟩

/-- An evaluation that fails with an offset accuses the instruction whose symbol is the character
there, and names its index: as many symbols stand in front of it. The report points at the symbol,
if the text fits into memory. That goes for every interpreter, and also for evaluations that others
may cancel. -/
theorem executes_accuses
    (h : Executes .live source input output it (.failed cause) it' input' output')
    (hoffset : cause.offset? = some offset) :
    ∃ index i, cause.Accuses index offset i ∧ offset < source.toList.length ∧
      source.toList[offset]? = some i.symbol ∧
      Program.countSymbols (source.toList.take offset) = index ∧
      (source.utf8ByteSize ≤ Tape.maxCapacity → ∀ program label,
        Report.Points i.symbol (' ' :: ' ' :: Report.window source.toList offset)
          (Report.headline program cause label) (cause.report program source label)) := by
  obtain ⟨index, i, haccuses, hstands⟩ := exists_accuses h hoffset
  refine ⟨index, i, haccuses, hstands.lt, hstands.symbol, hstands.before,
    fun hsize program label => ?_⟩
  have hreport : cause.report program source label =
      Report.context (Report.headline program cause label) source offset := by
    simp only [Failure.report, hoffset]
  rw [hreport]
  exact Report.points_context _ hsize hstands.symbol

/-- In the second line of a text, behind a letter of two bytes, `+>` overruns a single cell. -/
theorem executes_accuses_overrun :
    let source := "é\n+>"
    let cause : Failure := .overrun ⟨1, 3⟩ (.pastLast 0)
    let it := new 1 .strict
    ∃ it' input' output', Executes .live source [] {} it (.failed cause) it' input' output' ∧
      cause.offset? = some 3 ∧ source.utf8ByteSize ≤ Tape.maxCapacity ∧
      cause.Accuses 1 3 .moveRight ∧ Program.countSymbols (source.toList.take 3) = 1 ∧
      Report.Points '>' [' ', ' ', 'é', ' ', '+', '>'] (Report.headline (some "bf") cause)
        (cause.report (some "bf") source) := by
  intro source cause it
  have hending : (it.execute .live false 3 source [] {}).map (·.ending) =
      some (.failed cause) := by decide
  obtain ⟨e, he, hending⟩ := Option.map_eq_some_iff.1 hending
  have h := executes_of_execute he
  rw [hending] at h
  have hsize : source.utf8ByteSize ≤ Tape.maxCapacity := by decide
  obtain ⟨index, i, haccuses, _, _, hbefore, hpoints⟩ := executes_accuses h rfl
  have haccuses' : Failure.Accuses (.overrun ⟨1, 3⟩ (.pastLast 0)) index 3 i := haccuses
  have hwindow : Report.window source.toList 3 = ['é', ' ', '+', '>'] := by decide
  cases haccuses' with
  | pastLast =>
    have hreport := hpoints hsize (some "bf") "error"
    rw [hwindow] at hreport
    exact ⟨_, _, _, h, rfl, hsize, .pastLast, hbefore, hreport⟩

end Interpreter

end TapeMachine
