import DoubleDispatch.Text.Blank

/-!
# Cutting a text at marks

A text is cut at every occurrence of a character, or in two at the first occurrence of a mark.
-/

namespace DoubleDispatch.Text

/-- The parts of a text between the occurrences of `sep`; there is always at least one. -/
def split (sep : Char) : List Char → List (List Char)
  | [] => [[]]
  | c :: s =>
    if c = sep then [] :: split sep s
    else
      match split sep s with
      | part :: parts => (c :: part) :: parts
      | [] => [[c]]

/-- What stands before and behind the first occurrence of a mark. -/
def splitOnce? (mark : List Char) : List Char → Option (List Char × List Char)
  | [] => if mark.isEmpty then some ([], []) else none
  | c :: s =>
    if mark.isPrefixOf (c :: s) then some ([], (c :: s).drop mark.length)
    else (splitOnce? mark s).map fun (before, behind) ↦ (c :: before, behind)

/-- The text without one final `c`, if it ends with one. -/
def stripSuffix? (c : Char) (s : List Char) : Option (List Char) :=
  if s.getLast? = some c then some s.dropLast else none

/-- The words of a text: its longest parts without white space. -/
def words (s : List Char) : List (List Char) :=
  (s.splitBy fun c d ↦ isBlank c == isBlank d).filter (!·.all isBlank)

end DoubleDispatch.Text
