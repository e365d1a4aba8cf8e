/-!
# Digits

The numbers that digits stand for, and numbers that have a sign.
-/

namespace DoubleDispatch.Text

/-- The natural number that decimal digits stand for. -/
def decimalValue (digits : List Char) : Nat :=
  digits.foldl (fun n c ↦ 10 * n + (c.toNat - '0'.toNat)) 0

/-- The value of a hexadecimal digit. -/
def hexDigit? (c : Char) : Option Nat :=
  if c.isDigit then some (c.toNat - '0'.toNat)
  else if 'a' ≤ c ∧ c ≤ 'f' then some (c.toNat - 'a'.toNat + 10)
  else if 'A' ≤ c ∧ c ≤ 'F' then some (c.toNat - 'A'.toNat + 10)
  else none

/-- The natural number that hexadecimal digits stand for. -/
def hexValue? (digits : List Char) : Option Nat :=
  digits.foldlM (fun n c ↦ (hexDigit? c).map (16 * n + ·)) 0

/-- The character whose number is given in hexadecimal digits. -/
def numbered? (digits : List Char) : Option Char :=
  (hexValue? digits).bind fun n ↦ if n.isValidChar then some (Char.ofNat n) else none

/-- A text without one leading sign. -/
def unsigned : List Char → List Char
  | '+' :: s => s
  | '-' :: s => s
  | s => s

/-- Whether a text is made of one or more decimal digits. -/
def areDigits (s : List Char) : Bool := !s.isEmpty && s.all Char.isDigit

/-- Whether a text is empty or an exponent of ten. -/
def isExponent : List Char → Bool
  | [] => true
  | c :: s => (c = 'e' || c = 'E') && areDigits (unsigned s)

/-- Whether a text without a sign is a decimal number: digits with at most one point among or
around them, and an exponent or none. -/
def isDecimal (s : List Char) : Bool :=
  let whole := s.takeWhile Char.isDigit
  match s.drop whole.length with
  | '.' :: s =>
    let fraction := s.takeWhile Char.isDigit
    (!whole.isEmpty || !fraction.isEmpty) && isExponent (s.drop fraction.length)
  | s => !whole.isEmpty && isExponent s

end DoubleDispatch.Text
