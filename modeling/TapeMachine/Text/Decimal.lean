/-!
# TapeMachine.Text.Decimal

Numbers in decimal notation: a sign, digits with at most one point among them, and a power of ten
after an `e`. The words for infinity and for what is no number count as well.
-/

namespace TapeMachine.Text

def numberWords : List String := ["inf", "infinity", "nan"]

def unsigned : List Char → List Char
  | '+' :: rest => rest
  | '-' :: rest => rest
  | text => text

def isDigits (text : List Char) : Bool := !text.isEmpty && text.all Char.isDigit

/-- Whether a text is digits with at most one point. The point may stand before or after all of
them, but not alone. -/
def isMantissa (text : List Char) : Bool :=
  let whole := text.takeWhile Char.isDigit
  match text.dropWhile Char.isDigit with
  | [] => isDigits whole
  | '.' :: part => part.all Char.isDigit && !(whole ++ part).isEmpty
  | _ => false

def isExponentMark (c : Char) : Bool := c = 'e' || c = 'E'

def isScientific (text : List Char) : Bool :=
  isMantissa (text.takeWhile (!isExponentMark ·)) &&
    match text.dropWhile (!isExponentMark ·) with
    | [] => true
    | _ :: power => isDigits (unsigned power)

def isDecimal (text : List Char) : Bool :=
  let text := unsigned text
  isScientific text || (String.ofList (text.map Char.toLower)) ∈ numberWords

example : isDecimal "+1.5e-3".toList = true ∧ isDecimal "+.".toList = false := by decide

end TapeMachine.Text
