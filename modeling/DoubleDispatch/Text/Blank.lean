import DoubleDispatch.Text.CodeRanges

/-!
# White space

The characters with the Unicode property `White_Space`: what separates tokens and what trimming
removes from both ends of a name.
-/

namespace DoubleDispatch.Text

/-- Code points with the property `White_Space`. -/
def blankRanges : CodeRanges := ⟨[
    (0x9, 0xd), (0x20, 0x20), (0x85, 0x85), (0xa0, 0xa0), (0x1680, 0x1680), (0x2000, 0x200a),
    (0x2028, 0x2029), (0x202f, 0x202f), (0x205f, 0x205f), (0x3000, 0x3000)]⟩

/-- Whether a character is white space. -/
def isBlank (c : Char) : Bool := blankRanges.contains c

end DoubleDispatch.Text
