import DoubleDispatch.Configuration.Value
import DoubleDispatch.Text.Digits

/-!
# Scalars of YAML

A scalar without quotes stands for nothing, a truth value, a number or a text, whichever its
spelling says. A scalar in quotes is a text.
-/

namespace DoubleDispatch.Yaml

/-- Whether a plain scalar stands for nothing. -/
def isNull (s : String) : Bool := ["", "~", "null", "Null", "NULL"].contains s

/-- The truth value that a plain scalar stands for. -/
def truth? (s : String) : Option Bool :=
  if ["true", "True", "TRUE"].contains s then some true
  else if ["false", "False", "FALSE"].contains s then some false
  else none

/-- Whether a plain scalar is an integer. Digits behind a leading zero are none. -/
def isInteger (s : List Char) : Bool :=
  match Text.unsigned s with
  | '0' :: 'x' :: digits => !digits.isEmpty && (Text.hexValue? digits).isSome
  | '0' :: 'o' :: digits => !digits.isEmpty && digits.all fun c ↦ '0' ≤ c && c ≤ '7'
  | '0' :: 'b' :: digits => !digits.isEmpty && digits.all fun c ↦ c = '0' || c = '1'
  | '0' :: [] => true
  | '0' :: _ => false
  | digits => Text.areDigits digits

/-- Whether digits stand behind a leading zero, which makes them a text. -/
def isZeroPadded (s : List Char) : Bool :=
  match Text.unsigned s with
  | '0' :: digits => Text.areDigits digits
  | _ => false

/-- Whether a plain scalar is a number with a point or an exponent, an infinity, or no number. -/
def isReal (s : String) : Bool :=
  [".inf", ".Inf", ".INF", ".nan", ".NaN", ".NAN"].contains s ||
    ["+.inf", "+.Inf", "+.INF", "-.inf", "-.Inf", "-.INF"].contains s ||
    !isZeroPadded s.toList && Text.isDecimal (Text.unsigned s.toList)

/-- What a plain scalar stands for. -/
def plainValue (s : String) : LayerValue :=
  if isNull s then .null
  else match truth? s with
  | some b => .bool b
  | none => if isInteger s.toList || isReal s then .number else .text s

/-- What a scalar stands for under a tag of the core schema; none if the tag does not fit. -/
def taggedValue? (tag : String) (s : String) : Option LayerValue :=
  match tag with
  | "null" => if isNull s && s ≠ "" then some .null else none
  | "bool" => (truth? s).map .bool
  | "int" => if isInteger s.toList then some .number else none
  | "float" => if isInteger s.toList || isReal s then some .number else none
  | _ => some (.text s)

end DoubleDispatch.Yaml
