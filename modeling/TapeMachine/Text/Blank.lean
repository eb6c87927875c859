/-!
# TapeMachine.Text.Blank

White space as Unicode's property `White_Space` has it, and the trimming of texts.
-/

namespace TapeMachine.Text

/-- The code points with the property `White_Space`, as ranges of first and last. -/
def blankRanges : List (Nat × Nat) :=
  [(0x09, 0x0D), (0x20, 0x20), (0x85, 0x85), (0xA0, 0xA0), (0x1680, 0x1680), (0x2000, 0x200A),
   (0x2028, 0x2029), (0x202F, 0x202F), (0x205F, 0x205F), (0x3000, 0x3000)]

def isBlank (c : Char) : Bool :=
  blankRanges.any fun (first, last) => first ≤ c.toNat && c.toNat ≤ last

def trimLeft (text : List Char) : List Char := text.dropWhile isBlank

def trimRight (text : List Char) : List Char := (text.reverse.dropWhile isBlank).reverse

def trim (text : List Char) : List Char := trimRight (trimLeft text)

example : isBlank '\u00a0' = true ∧ isBlank '\u200b' = false := by decide

end TapeMachine.Text
