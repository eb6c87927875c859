import Mathlib.Algebra.Group.Nat.Defs
import TapeMachine.Proofs.Location

/-!
# TapeMachine.Proofs.Excerpt

What a report shows of a text, for every position that a word can hold.

* `Report.excerpt`    — the characters of a text between two indices, which may be any integers.
* `Report.lineBreaks` — the characters that end a line, or may be taken to.
* `Report.window_eq_excerpt` — the window around a position is what lies at most 32 characters
  away from it, although sums of positions are reduced to words on the way.
* `Report.context_excerpt`   — the lines of a report, and the column of the caret.
-/

namespace TapeMachine

namespace Report

/-- The characters from the index `first` up to and not including `last`, with blanks for white
space. -/
def excerpt (text : List Char) (first last : Int) : List Char :=
  (text.zipIdx.filter fun (_, index) => first ≤ index ∧ (index : Int) < last).map
    fun (c, _) => flatten c

/-- Line feed, vertical tab, form feed, carriage return, next line, and the separators of lines and
of paragraphs. -/
def lineBreaks : List Char := ['\n', '\x0b', '\x0c', '\r', '\u0085', '\u2028', '\u2029']

variable {text : List Char} {c : Char}

/-! ## Pieces of a text -/

theorem map_filter_zipIdx (text : List Char) (start first last : Nat) :
    ((text.zipIdx start).filter fun (_, index) => first ≤ index ∧ index < last).map
        (fun (c, _) => flatten c) =
      ((text.drop (first - start)).take (last - max first start)).map flatten := by
  induction text generalizing start with
  | nil => simp
  | cons c rest ih =>
    rw [List.zipIdx_cons]
    by_cases hfirst : first ≤ start
    · have hdrop : first - start = 0 := by omega
      by_cases hlast : start < last
      · have htake : last - max first start = (last - max first (start + 1)) + 1 := by omega
        have hdrop' : first - (start + 1) = 0 := by omega
        rw [List.filter_cons_of_pos (by simp [hfirst, hlast]), List.map_cons, ih, hdrop, hdrop',
          htake]
        rfl
      · have htake : last - max first start = 0 := by omega
        have htake' : last - max first (start + 1) = 0 := by omega
        rw [List.filter_cons_of_neg (by simp [hlast]), ih, htake, htake']
        rfl
    · have hdrop : first - start = (first - (start + 1)) + 1 := by omega
      have hmax : max first start = max first (start + 1) := by omega
      rw [List.filter_cons_of_neg (by simp [hfirst]), ih, hdrop, hmax, List.drop_succ_cons]

theorem excerpt_eq (text : List Char) (first last : Nat) :
    excerpt text first last = ((text.drop first).take (last - first)).map flatten := by
  have hpiece := map_filter_zipIdx text 0 first last
  rw [Nat.sub_zero, Nat.max_zero] at hpiece
  rw [← hpiece]
  simp only [excerpt, Int.ofNat_le, Int.ofNat_lt]

theorem length_excerpt_le (text : List Char) (first last : Nat) :
    (excerpt text first last).length ≤ last - first := by
  rw [excerpt_eq, List.length_map, List.length_take]
  omega

/-! ## Line breaks -/

theorem flatten_not_mem_lineBreaks (c : Char) : flatten c ∉ lineBreaks := by
  -- All of them are white space, for which a blank is shown.
  have hblank : lineBreaks.all Text.isBlank = true := by decide
  rw [flatten]
  split
  · decide
  · rename_i hc
    exact fun hmem => hc (List.all_eq_true.1 hblank c hmem)

theorem not_mem_lineBreaks_of_mem_excerpt {first last : Int} (h : c ∈ excerpt text first last) :
    c ∉ lineBreaks := by
  obtain ⟨⟨c, _⟩, _, rfl⟩ := List.mem_map.1 h
  exact flatten_not_mem_lineBreaks c

/-! ## The window -/

theorem window_eq_excerpt (hlength : text.length < 2 ^ 63) (position : Nat) :
    window text position =
      excerpt text (position - radius : Nat) (min (position + radius + 1) text.length : Nat) := by
  rw [excerpt_eq]
  simp only [window, windowStart, windowEnd]
  by_cases hfits : position + radius + 1 < Text.wordSize
  · rw [Nat.mod_eq_of_lt hfits]
  · -- The sum wraps around to a small number, but the text ends in front of the window.
    have hbehind : text.length ≤ position - radius := by
      simp only [Text.wordSize, radius] at hfits ⊢
      omega
    rw [List.drop_eq_nil_of_le hbehind, List.take_nil, List.take_nil]

/-- For every text that fits into memory and every position, be it in the text or so far behind it
that sums of it wrap around, a report consists of its message, of a line with the part of
the text at most 32 characters before or behind the position, and of a line with a caret. What is
shown of the text has at most 65 characters and no line break, and the caret stands below the
character at the position, if there is one. -/
theorem context_excerpt (message : String) {code : String}
    (hlength : code.toList.length < 2 ^ 63) (position : Nat) :
    let shown := excerpt code.toList (max ((position : Int) - 32) 0)
      (min ((position : Int) + 33) code.toList.length)
    let upper := [' ', ' '] ++ shown
    let lower := [' ', ' '] ++ List.replicate (min position 32) ' ' ++ ['^']
    context message code position =
        message ++ "\n" ++ String.ofList upper ++ "\n" ++ String.ofList lower ++ "\n" ∧
      shown.length ≤ 65 ∧ (∀ c ∈ shown, c ∉ lineBreaks) ∧
      ∀ c, code.toList[position]? = some c → ∃ column : Nat,
        upper[column]? = some (flatten c) ∧ lower[column]? = some '^' := by
  intro shown upper lower
  have hindent : position - windowStart position = min position 32 := by
    simp only [windowStart, radius]
    omega
  have hshown : shown = excerpt code.toList (position - radius : Nat)
      (min (position + radius + 1) code.toList.length : Nat) := by
    have hfirst : max ((position : Int) - 32) 0 = (position - radius : Nat) := by
      simp only [radius]
      omega
    have hlast : min ((position : Int) + 33) code.toList.length =
        (min (position + radius + 1) code.toList.length : Nat) := by
      simp only [radius]
      omega
    rw [← hfirst, ← hlast]
  have hwindow : window code.toList position = shown := by
    rw [hshown, window_eq_excerpt hlength]
  refine ⟨?_, ?_, fun c => not_mem_lineBreaks_of_mem_excerpt, fun c hc => ?_⟩
  · rw [context, hwindow, hindent, ← String.toList_inj]
    simp [upper, lower]
  · have hle := length_excerpt_le code.toList (position - radius)
      (min (position + radius + 1) code.toList.length)
    rw [← hshown] at hle
    simp only [radius] at hle
    omega
  · have hlt := (List.getElem?_eq_some_iff.1 hc).1
    have hfits : position + radius + 1 < Text.wordSize := by
      simp only [radius, Text.wordSize]
      omega
    have hat := getElem?_window hfits hc
    rw [hwindow, hindent] at hat
    refine ⟨min position 32 + 2, hat, ?_⟩
    simp [lower]

/-- Of a text of two lines all is shown, around its last character. Around the last position that a
word can hold nothing is shown. -/
theorem context_excerpt_last :
    let code := "é\n]"
    code.toList.length < 2 ^ 63 ∧
      context "oops" code 2 = "oops\n  é ]\n    ^\n" ∧
      context "oops" code (2 ^ 64 - 1) =
        "oops\n  \n" ++ String.ofList (List.replicate 34 ' ') ++ "^\n" := by
  intro code
  have hlength : code.toList.length < 2 ^ 63 := by decide
  obtain ⟨hmiddle, _⟩ := context_excerpt "oops" hlength 2
  obtain ⟨hlast, _⟩ := context_excerpt "oops" hlength (2 ^ 64 - 1)
  refine ⟨hlength, hmiddle.trans ?_, hlast.trans ?_⟩
  · decide
  · decide

end Report

end TapeMachine
