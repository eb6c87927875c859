import TapeMachine.Proofs.Denotation

/-!
# TapeMachine.Proofs.Lines

What the lines of a settings file say, by their form.

* `Settings.File.Form`  — what a line says when there is no white space around it: nothing, that a
  section begins, or that a key has a value.
* `Settings.File.Says`  — the same with white space around the line.
* `says_iff`            — lines are read as their form has it.
* `lines_eq_splitOn`    — the lines of a text are its pieces between line feeds. A carriage return
  before a line feed is white space, and what stands behind the last one says nothing if it is
  empty, so that no other ends of lines have to be known.
-/

namespace TapeMachine.Settings.File

/-- A value is what is written, but for one pair of double quotes around it. -/
inductive Unquotes : List Char → List Char → Prop where
  | quoted (value : List Char) : Unquotes ('"' :: (value ++ ['"'])) value
  | bare {value : List Char} (h : ∀ inside, value ≠ '"' :: (inside ++ ['"'])) :
      Unquotes value value

/-- The text is neither a comment nor in square brackets. -/
structure Plain (text : List Char) : Prop where
  comment : ∀ rest, text ≠ '#' :: rest
  bracketed : ∀ inside, text ≠ '[' :: (inside ++ [']'])

/-- What a text says that stands alone on its line. An assignment is parted at its first `=`. -/
inductive Form : List Char → Line → Prop where
  | blank : Form [] .nothing
  | comment (rest : List Char) : Form ('#' :: rest) .nothing
  | opens {inside name : List Char} (hname : Text.Trims inside name) :
      Form ('[' :: (inside ++ [']'])) (.opens name)
  | assigns {left right key raw value : List Char} (hplain : Plain (left ++ '=' :: right))
      (hfirst : '=' ∉ left) (hkey : Text.Trims left key) (hraw : Text.Trims right raw)
      (hvalue : Unquotes raw value) : Form (left ++ '=' :: right) (.assigns key value)
  | other {text : List Char} (hplain : Plain text) (hnone : '=' ∉ text) : Form text .nothing

def Says (line : List Char) (l : Line) : Prop := ∃ text, Text.Trims line text ∧ Form text l

variable {text line raw value left right : List Char} {l : Line}

theorem unquotes_iff : Unquotes raw value ↔ unquote raw = value := by
  constructor
  · intro h
    cases h with
    | quoted => simp [unquote]
    | bare h =>
      rw [unquote.eq_def]
      split
      · rename_i rest
        split
        · rename_i hlast
          obtain ⟨inside, rfl⟩ := List.getLast?_eq_some_iff.1 hlast
          exact absurd rfl (h inside)
        · rfl
      · rfl
  · rintro rfl
    rw [unquote.eq_def]
    split
    · rename_i rest
      split
      · rename_i hlast
        obtain ⟨inside, rfl⟩ := List.getLast?_eq_some_iff.1 hlast
        rw [List.dropLast_concat]
        exact .quoted inside
      · rename_i hlast
        refine .bare fun inside h => hlast ?_
        cases h
        exact List.getLast?_concat
    · rename_i hquote
      exact .bare fun inside h => hquote _ h

theorem splitAssign_append (h : '=' ∉ left) (right : List Char) :
    splitAssign (left ++ '=' :: right) = some (left, right) := by
  induction left with
  | nil => rfl
  | cons c left ih =>
    rw [List.mem_cons, not_or] at h
    rw [List.cons_append, splitAssign, ih h.2]
    · rfl
    · exact fun hc => h.1 hc.symm

theorem splitAssign_of_not_mem (h : '=' ∉ text) : splitAssign text = none := by
  induction text with
  | nil => rfl
  | cons c text ih =>
    rw [List.mem_cons, not_or] at h
    rw [splitAssign, ih h.2]
    · rfl
    · exact fun hc => h.1 hc.symm

theorem readAssign_append (h : '=' ∉ left) (right : List Char) :
    readAssign (left ++ '=' :: right) =
      .assigns (Text.trim left) (unquote (Text.trim right)) := by
  rw [readAssign, splitAssign_append h]

theorem readAssign_of_not_mem (h : '=' ∉ text) : readAssign text = .nothing := by
  rw [readAssign, splitAssign_of_not_mem h]

/-- A text that is neither a comment nor in brackets says what is written before and after its
first `=`, or nothing. -/
theorem form_readAssign (h : Plain text) : Form text (readAssign text) := by
  by_cases hmem : '=' ∈ text
  · obtain ⟨left, right, rfl, hfirst⟩ := List.eq_append_cons_of_mem hmem
    rw [readAssign_append hfirst]
    exact .assigns h hfirst (Text.trims_trim _) (Text.trims_trim _) (unquotes_iff.2 rfl)
  · rw [readAssign_of_not_mem hmem]
    exact .other h hmem

theorem form_readLine (line : List Char) : Form (Text.trim line) (readLine line) := by
  unfold readLine
  generalize Text.trim line = text
  split
  · exact .blank
  · exact .comment _
  · split
    · rename_i hlast
      obtain ⟨inside, rfl⟩ := List.getLast?_eq_some_iff.1 hlast
      rw [List.dropLast_concat]
      exact .opens (Text.trims_trim inside)
    · rename_i hlast
      refine form_readAssign ⟨fun _ h => ?_, fun inside h => hlast ?_⟩
      · cases h
      · cases h
        exact List.getLast?_concat
  · rename_i hcomment hbracket
    exact form_readAssign ⟨fun rest h => hcomment rest h, fun _ h => hbracket _ h⟩

theorem readLine_of_plain (h : Plain (Text.trim line)) :
    readLine line = readAssign (Text.trim line) := by
  rw [readLine]
  split
  · rename_i hblank
    rw [hblank]
    rfl
  · rename_i rest hcomment
    exact absurd hcomment (h.comment rest)
  · rename_i rest hbracket
    rw [if_neg, hbracket]
    intro hlast
    obtain ⟨inside, rfl⟩ := List.getLast?_eq_some_iff.1 hlast
    exact h.bracketed inside hbracket
  · rfl

theorem readLine_of_form (h : Form (Text.trim line) l) : readLine line = l := by
  generalize htext : Text.trim line = text at h
  cases h with
  | blank => simp only [readLine, htext]
  | comment rest => simp only [readLine, htext]
  | opens hname => simp [readLine, htext, Text.trims_iff.1 hname]
  | assigns hplain hfirst hkey hraw hvalue =>
    rw [readLine_of_plain (htext ▸ hplain), htext, readAssign_append hfirst,
      Text.trims_iff.1 hkey, Text.trims_iff.1 hraw, unquotes_iff.1 hvalue]
  | other hplain hnone =>
    rw [readLine_of_plain (htext ▸ hplain), htext, readAssign_of_not_mem hnone]

theorem says_iff : Says line l ↔ readLine line = l := by
  constructor
  · rintro ⟨text, htrims, hform⟩
    obtain rfl := Text.trims_iff.1 htrims
    exact readLine_of_form hform
  · rintro rfl
    exact ⟨_, Text.trims_trim line, form_readLine line⟩

theorem lines_eq_splitOn (text : List Char) : lines text = text.splitOn '\n' := by
  induction text with
  | nil => rfl
  | cons c rest ih =>
    rw [List.splitOn_cons_eq_if_modifyHead]
    split
    · rename_i hc
      rw [beq_iff_eq.1 hc, lines, ih]
    · rename_i hc
      have hne : c ≠ '\n' := fun h => hc (beq_iff_eq.2 h)
      rw [lines, ih]
      · cases hrest : rest.splitOn '\n' with
        | nil => exact absurd hrest (List.splitOn_ne_nil _ _)
        | cons line later => rfl
      · exact hne

end TapeMachine.Settings.File
