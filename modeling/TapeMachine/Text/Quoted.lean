import TapeMachine.Text.Hidden

/-!
# TapeMachine.Text.Quoted

Texts as they are shown in log lines: in quotes, with escapes for what would be hard to see
(`quote`), or bare, with escapes only for the controls that a terminal acts upon (`disarm`).
-/

namespace TapeMachine.Text

/-- A number in hexadecimal, with at least `width` digits. -/
def hex (width n : Nat) : String := String.ofList ((Nat.toDigits 16 n).leftpad width '0')

def codePoint (c : Char) : String := "\\u\x7b" ++ hex 1 c.toNat ++ "\x7d"

def escape : Char → String
  | '\x00' => "\\0"
  | '\t' => "\\t"
  | '\n' => "\\n"
  | '\r' => "\\r"
  | '"' => "\\\""
  | '\\' => "\\\\"
  | c => if isHidden c then codePoint c else c.toString

def quote (text : String) : String := "\"" ++ String.join (text.toList.map escape) ++ "\""

/-- The controls that begin or end the commands of a terminal. -/
def armed : List Char := ['\x1b', '\x07', '\x08', '\x0c', '\x7f']

def disarmChar (c : Char) : String :=
  if c ∈ armed then "\\x" ++ hex 2 c.toNat
  else if 0x80 ≤ c.toNat ∧ c.toNat ≤ 0x9f then codePoint c
  else c.toString

/-- A text without quotes that no terminal acts upon. -/
def disarm (text : String) : String := String.join (text.toList.map disarmChar)

end TapeMachine.Text
