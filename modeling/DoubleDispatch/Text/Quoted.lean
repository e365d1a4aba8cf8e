import DoubleDispatch.Text.Blank
import DoubleDispatch.Text.Unprintable

/-!
# Quoted text in messages

A message shows a text between double quotes. Quotes and backslashes are escaped, four controls
have short names, and every character that could not be seen on the line is written as its number.
-/

namespace DoubleDispatch.Text

/-- The escape of a character by its number, in lower-case hexadecimal digits. -/
def numericEscape (c : Char) : List Char :=
  ['\\', 'u', '\x7b'] ++ Nat.toDigits 16 c.toNat ++ ['\x7d']

/-- The written form of one character between quotes. -/
def quoteChar (c : Char) : List Char :=
  match c with
  | '\x00' => ['\\', '0']
  | '\t' => ['\\', 't']
  | '\n' => ['\\', 'n']
  | '\r' => ['\\', 'r']
  | '"' => ['\\', '"']
  | '\\' => ['\\', '\\']
  | c => if isExtender c || isUnprintable c then numericEscape c else [c]

/-- A text between double quotes. -/
def quote (s : String) : String :=
  String.ofList (['"'] ++ s.toList.flatMap quoteChar ++ ['"'])

end DoubleDispatch.Text
