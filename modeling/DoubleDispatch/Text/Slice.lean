/-!
# Slices by byte offset

Offsets into a source count the bytes of its UTF-8 form. An offset that falls inside a character
stands for the start of that character, and an offset beyond the end for the end.
-/

namespace DoubleDispatch.Text

/-- The number of bytes that a text takes in UTF-8. -/
def byteLength : List Char → Nat
  | [] => 0
  | c :: s => c.utf8Size + byteLength s

/-- The longest prefix of at most `n` bytes. -/
def takeBytes (n : Nat) : List Char → List Char
  | [] => []
  | c :: s => if c.utf8Size ≤ n then c :: takeBytes (n - c.utf8Size) s else []

/-- What follows the longest prefix of at most `n` bytes. -/
def dropBytes (n : Nat) : List Char → List Char
  | [] => []
  | c :: s => if c.utf8Size ≤ n then dropBytes (n - c.utf8Size) s else c :: s

/-- The text between two byte offsets. -/
def slice (start stop : Nat) (s : List Char) : List Char :=
  takeBytes (stop - start) (dropBytes start s)

/-- A text is cut in two without loss. -/
theorem takeBytes_append_dropBytes (n : Nat) (s : List Char) :
    takeBytes n s ++ dropBytes n s = s := by
  induction s generalizing n with
  | nil => rfl
  | cons c s ih =>
    by_cases h : c.utf8Size ≤ n
    · simp [takeBytes, dropBytes, h, ih]
    · simp [takeBytes, dropBytes, h]

end DoubleDispatch.Text
