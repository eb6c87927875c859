/-!
# TapeMachine.Text.Numeral

Decimal numerals for 64-bit words: an optional `+` and one or more digits. The digits are read
from the left, and the first character that cannot be accepted decides on the error.
-/

namespace TapeMachine.Text

/-- The number of values of a word, the 64th power of 2. -/
def wordSize : Nat := 18446744073709551616

inductive Numeral.Fault where
  | empty
  | invalidDigit
  | tooLarge
  deriving DecidableEq

def Numeral.Fault.message : Numeral.Fault → String
  | empty => "cannot parse integer from empty string"
  | invalidDigit => "invalid digit found in string"
  | tooLarge => "number too large to fit in target type"

def digit? (c : Char) : Option Nat :=
  if '0' ≤ c ∧ c ≤ '9' then some (c.toNat - '0'.toNat) else none

namespace Numeral

/-- Reads digits on from the value of those before. -/
def readDigits : Nat → List Char → Except Fault Nat
  | value, [] => .ok value
  | value, c :: rest =>
    match digit? c with
    | none => .error .invalidDigit
    | some d =>
      let value := 10 * value + d
      if value < wordSize then readDigits value rest else .error .tooLarge

def readUnsigned : List Char → Except Fault Nat
  | [] => .error .invalidDigit
  | digits => readDigits 0 digits

def read : List Char → Except Fault Nat
  | [] => .error .empty
  | '+' :: digits => readUnsigned digits
  | digits => readUnsigned digits

def value? (text : List Char) : Option Nat := (read text).toOption

end Numeral

end TapeMachine.Text
