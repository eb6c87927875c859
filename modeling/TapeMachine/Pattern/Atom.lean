import TapeMachine.Pattern.Basic

/-!
# TapeMachine.Pattern.Atom

The smallest parts of a pattern: characters that stand for themselves, and what begins with a
backslash. A number of repetitions, and everything else that is written in braces, is not known.

* `Atom`   — what such a part stands for.
* `escape` — reads what follows a backslash.
-/

namespace TapeMachine.Pattern

inductive Atom where
  | literal (c : Char)
  | kind
  | place

def hexDigit? (c : Char) : Option Nat :=
  if c.isDigit then some (c.toNat - '0'.toNat)
  else if 'a' ≤ c ∧ c ≤ 'f' then some (c.toNat - 'a'.toNat + 10)
  else if 'A' ≤ c ∧ c ≤ 'F' then some (c.toNat - 'A'.toNat + 10)
  else none

def hexDigits (m : Mode) : Nat → Nat → List Char → Option (Nat × List Char)
  | 0, value, text => some (value, m.skip text)
  | count + 1, value, text =>
    match m.skip text with
    | [] => none
    | c :: rest =>
      match hexDigit? c with
      | none => none
      | some digit => hexDigits m count (16 * value + digit) rest

/-- Reads a character by its code point, of so many digits. Two digits are a byte where the pattern
is about bytes. -/
def codePoint (m : Mode) (digits : Nat) (text : List Char) : Option (Atom × List Char) :=
  match hexDigits m digits 0 text with
  | none => none
  | some (value, rest) =>
    if ¬value.isValidChar then none
    else if digits = 2 ∧ ¬m.tells (Char.ofNat value) then none
    else some (.literal (Char.ofNat value), rest)

def ofBytes (m : Mode) (atom : Atom) (rest : List Char) : Option (Atom × List Char) :=
  if m.unicode then none else some (atom, rest)

/-- Reads what follows a backslash. Digits, spaces, letters of words and the borders of words can
be had only among bytes. Their contraries cannot be had at all: they are not known among
characters, and some of them are no characters among bytes. -/
def escape (m : Mode) : List Char → Option (Atom × List Char)
  | [] => none
  | c :: rest =>
    match c with
    | 'x' => codePoint m 2 rest
    | 'u' => codePoint m 4 rest
    | 'U' => codePoint m 8 rest
    | 'd' | 's' | 'w' => ofBytes m .kind rest
    | 'a' => some (.literal '\x07', rest)
    | 't' => some (.literal '\t', rest)
    | 'n' => some (.literal '\n', rest)
    | 'v' => some (.literal '\x0b', rest)
    | 'f' => some (.literal '\x0c', rest)
    | 'r' => some (.literal '\r', rest)
    | 'A' | 'z' => some (.place, rest)
    | 'b' | 'B' | '<' | '>' => ofBytes m .place rest
    | _ => if c.toNat < 0x80 ∧ ¬c.isAlphanum then some (.literal c, rest) else none

end TapeMachine.Pattern
