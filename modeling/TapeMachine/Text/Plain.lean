/-!
# TapeMachine.Text.Plain

Texts for readers that are no terminal: the commands that a terminal would act upon are left out.
A command begins with the escape character. Most commands end with a letter; those that send a
string to the terminal or to a device end with the next command, or with the string terminator.
White space interrupts a command: it is kept with the text after it, and the command goes on after
the next control that makes no white space, unless a character of several bytes has been kept.

* `Stage`        — where in a command a text is at some place.
* `Stage.follow` — goes on by a character, and tells whether the character is kept.
* `plain`        — the text without commands and without controls that make no white space.
-/

namespace TapeMachine.Text

inductive Stage where
  | outside
  | escape
  /-- After the escape character and a punctuation mark. -/
  | longEscape
  | control
  /-- In a command to the operating system, which the bell ends as well. -/
  | system
  /-- In a string that is nobody's business. -/
  | note
  /-- Before, in and after the numbers with which a message to a device begins. -/
  | device
  | deviceNumbers
  | deviceMarks
  | message
  deriving DecidableEq

def isSpacing (c : Char) : Bool := c ∈ ['\t', '\n', '\x0c', '\r']

def isShown (c : Char) : Bool := (' ' ≤ c && c ≠ '\x7f') || isSpacing c

/-- Whether the string terminator is among the bytes of a character. -/
def hasTerminator (c : Char) : Bool := (String.utf8EncodeChar c).contains 0x9c

namespace Stage

def byEscaped (c : Char) : Stage :=
  if ' ' ≤ c ∧ c ≤ '/' then longEscape
  else if c = '[' then control
  else if c = ']' then system
  else if c = 'P' then device
  else if c ∈ ['X', '^', '_'] then note
  else if '0' ≤ c ∧ c ≤ '~' then outside
  else escape

def byDevice (stage : Stage) (c : Char) : Stage :=
  if ' ' ≤ c ∧ c ≤ '/' then deviceMarks
  else if '0' ≤ c ∧ c ≤ '?' then
    if stage = deviceMarks ∨ (stage = deviceNumbers ∧ '<' ≤ c) then message else deviceNumbers
  else if '@' ≤ c ∧ c ≤ '~' then message
  else stage

def inside (stage : Stage) (c : Char) : Stage × Bool :=
  match stage with
  | outside => (outside, isShown c)
  | escape => if c < ' ' then (escape, isSpacing c) else (byEscaped c, false)
  | longEscape => (if '0' ≤ c ∧ c ≤ '~' then outside else longEscape, isSpacing c)
  | control => (if '@' ≤ c ∧ c ≤ '~' then outside else control, isSpacing c)
  | system => (if c = '\x07' then outside else system, false)
  | note => (if hasTerminator c then outside else note, false)
  | message => (if hasTerminator c then outside else message, false)
  | stage => (byDevice stage c, false)

/-- Goes on by a character, and tells whether it is kept. What comes after a character that has
been kept is looked at as outside of commands, as long as it is kept itself. -/
def follow (stage : Stage) (afterKept : Bool) (c : Char) : Stage × Bool :=
  if afterKept ∧ isShown c then (if c.toNat < 0x80 then stage else outside, true)
  else if c = '\x1b' then (escape, false)
  else if c = '\x18' ∨ c = '\x1a' then (outside, false)
  else stage.inside c

end Stage

/-- What is left of characters, the first of which stands at the given stage, after a character
that has been kept or not. -/
def plainChars : Stage → Bool → List Char → List Char
  | _, _, [] => []
  | stage, afterKept, c :: rest =>
    let (after, kept) := stage.follow afterKept c
    if kept then c :: plainChars after kept rest else plainChars after kept rest

def plain (text : String) : String := String.ofList (plainChars .outside false text.toList)

example : plainChars .outside false "he\x1b[1mll\x07o".toList = "hello".toList := by decide

example : plainChars .outside false "\x1b[\tab\x07cd".toList = "\tabd".toList := by decide

end TapeMachine.Text
