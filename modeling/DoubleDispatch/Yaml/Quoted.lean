import DoubleDispatch.Text.Digits

/-!
# Quoted scalars of YAML

A quoted scalar may run over several lines. A line break in it, with the blanks around it, stands
for a space, and each further one for itself.
-/

namespace DoubleDispatch.Yaml

/-- Whether a character is a space or a tab. -/
def isSpace (c : Char) : Bool := c = ' ' || c = '\t'

/-- What a run of line breaks stands for in a scalar. -/
def foldBreaks (count : Nat) : List Char :=
  if count ≤ 1 then List.replicate count ' ' else List.replicate (count - 1) '\n'

/-- The line breaks at the start of a text, blanks around them passed over, and the rest. -/
def takeBreaks (count : Nat) : List Char → Nat × List Char
  | [] => (count, [])
  | c :: s =>
    if c = '\n' then takeBreaks (count + 1) s
    else if isSpace c && count > 0 then takeBreaks count s
    else (count, c :: s)

theorem length_takeBreaks_le (count : Nat) (s : List Char) :
    (takeBreaks count s).2.length ≤ s.length := by
  induction s generalizing count with
  | nil => simp [takeBreaks]
  | cons c s ih =>
    simp only [takeBreaks]
    split
    · exact Nat.le_succ_of_le (ih _)
    · split
      · exact Nat.le_succ_of_le (ih _)
      · exact Nat.le_refl _

/-- The character with the number that the first `count` digits of a text give. -/
def numbered? (count : Nat) (s : List Char) : Option Char :=
  if s.length < count then none else Text.numbered? (s.take count)

/-- The character that a letter behind a backslash names. -/
def escaped? : Char → Option Char
  | '0' => some '\x00'
  | 'a' => some '\x07'
  | 'b' => some '\x08'
  | 't' | '\t' => some '\t'
  | 'n' => some '\n'
  | 'v' => some '\x0b'
  | 'f' => some '\x0c'
  | 'r' => some '\r'
  | 'e' => some '\x1b'
  | ' ' => some ' '
  | '"' => some '"'
  | '/' => some '/'
  | '\\' => some '\\'
  | 'N' => some '\u0085'
  | '_' => some '\u00a0'
  | 'L' => some '\u2028'
  | 'P' => some '\u2029'
  | _ => none

/-- The text in single quotes behind the opening quote, and what follows the closing quote. The
text read so far is reversed. A quote in the text is written twice. -/
def singleQuoted (acc : List Char) : List Char → Option (List Char × List Char)
  | [] => none
  | '\'' :: '\'' :: s => singleQuoted ('\'' :: acc) s
  | '\'' :: s => some (acc.reverse, s)
  | '\n' :: s =>
    have := length_takeBreaks_le 1 s
    singleQuoted ((foldBreaks (takeBreaks 1 s).1).reverse ++ acc.dropWhile isSpace)
      (takeBreaks 1 s).2
  | c :: s => singleQuoted (c :: acc) s
termination_by s => s.length

/-- The text in double quotes behind the opening quote, and what follows the closing quote. The
text read so far is reversed, its blanks at the end apart: a line break drops those. -/
def doubleQuoted (acc blanks : List Char) : List Char → Option (List Char × List Char)
  | [] => none
  | '"' :: s => some ((blanks ++ acc).reverse, s)
  | '\\' :: 'x' :: s => do
    doubleQuoted ((← numbered? 2 s) :: (blanks ++ acc)) [] (s.drop 2)
  | '\\' :: 'u' :: s => do
    doubleQuoted ((← numbered? 4 s) :: (blanks ++ acc)) [] (s.drop 4)
  | '\\' :: 'U' :: s => do
    doubleQuoted ((← numbered? 8 s) :: (blanks ++ acc)) [] (s.drop 8)
  | '\\' :: '\n' :: s =>
    have := length_takeBreaks_le 1 s
    doubleQuoted (List.replicate ((takeBreaks 1 s).1 - 1) '\n' ++ (blanks ++ acc)) []
      (takeBreaks 1 s).2
  | '\\' :: c :: s => do
    doubleQuoted ((← escaped? c) :: (blanks ++ acc)) [] s
  | '\n' :: s =>
    have := length_takeBreaks_le 1 s
    doubleQuoted ((foldBreaks (takeBreaks 1 s).1).reverse ++ acc) [] (takeBreaks 1 s).2
  | c :: s => if isSpace c then doubleQuoted acc (c :: blanks) s
    else doubleQuoted (c :: (blanks ++ acc)) [] s
termination_by s => s.length

end DoubleDispatch.Yaml
