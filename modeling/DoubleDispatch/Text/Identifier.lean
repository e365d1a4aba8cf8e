import DoubleDispatch.Text.Alphabetic
import DoubleDispatch.Text.Blank
import DoubleDispatch.Text.Numeric

/-!
# Identifiers

An identifier is a letter or underscore followed by letters, numerals and underscores. Names that
come from a slice of the source may have white space around them, which is trimmed.
-/

namespace DoubleDispatch.Text

/-- Whether an identifier may start with the character. -/
def startsIdentifier (c : Char) : Bool := c = '_' || isAlphabetic c

/-- Whether an identifier may go on with the character. -/
def continuesIdentifier (c : Char) : Bool := c = '_' || isAlphabetic c || isNumeric c

/-- Whether the whole text is one identifier. -/
def isIdentifier : List Char → Bool
  | [] => false
  | c :: s => startsIdentifier c && s.all continuesIdentifier

/-- The text without white space at its end. -/
def trimEnd (s : List Char) : List Char := (s.reverse.dropWhile isBlank).reverse

/-- The text without white space at either end. -/
def trim (s : List Char) : List Char := trimEnd (s.dropWhile isBlank)

theorem continuesIdentifier_of_startsIdentifier {c : Char} (h : startsIdentifier c) :
    continuesIdentifier c := by
  simp only [startsIdentifier, continuesIdentifier, Bool.or_eq_true] at h ⊢
  exact .inl h

end DoubleDispatch.Text
