import DoubleDispatch.Configuration.Value
import DoubleDispatch.Text.Digits
import DoubleDispatch.Text.Identifier
import DoubleDispatch.Text.Split

/-!
# Settings from the environment

A variable whose name starts with a mark sets one field; a separator in its name leads into a table.
Its value is a truth value, a number, a list or a table if it is written as one, and else the text
that it is.

The program is run with this reader; what is proved of runs holds for any other one too.
-/

namespace DoubleDispatch.Environment

/-! ### Values -/

/-- Whether a character is white space of ASCII. -/
def isSpace (c : Char) : Bool := c = ' ' || c = '\t' || c = '\n' || c = '\x0c' || c = '\r'

/-- Whether a character ends a value inside brackets. -/
def isSeparator (c : Char) : Bool :=
  c = ',' || c = '\x7b' || c = '\x7d' || c = '[' || c = ']'

/-- Whether a character may stand in the name of a field. -/
def isKeyCharacter (c : Char) : Bool :=
  Text.isAlphabetic c || Text.isNumeric c || c = '_' || c = '-'

/-- Whether a text is a whole number of 64 bits, with a sign or without. -/
def isInteger (s : List Char) : Bool :=
  let digits := Text.unsigned s
  Text.areDigits digits &&
    if s.head? = some '-' then Text.decimalValue digits ≤ UInt64.size / 2
    else Text.decimalValue digits < UInt64.size

/-- What a text outside quotes and brackets stands for. A number that is not whole has a point. -/
def bareValue (s : List Char) : LayerValue :=
  if s.contains '.' && Text.isDecimal (Text.unsigned s) || isInteger s then .number
  else .text (String.ofList s)

/-- The text in double quotes behind the opening quote, and what follows the closing quote. The
text read so far is reversed. -/
def quoted? (acc : List Char) : List Char → Option (List Char × List Char)
  | [] => none
  | '"' :: s => some (acc.reverse, s)
  | '\\' :: 'u' :: a :: b :: c :: d :: s => do
    quoted? ((← Text.numbered? [a, b, c, d]) :: acc) s
  | '\\' :: 'U' :: a :: b :: c :: d :: e :: f :: g :: h :: s => do
    quoted? ((← Text.numbered? [a, b, c, d, e, f, g, h]) :: acc) s
  | '\\' :: c :: s => do
    let escaped ← [('"', '"'), ('\\', '\\'), ('b', '\x08'), ('f', '\x0c'), ('n', '\n'),
      ('r', '\r'), ('t', '\t')].lookup c
    quoted? (escaped :: acc) s
  | c :: s => quoted? (c :: acc) s

mutual

/-- Reads a value and the white space around it. The number bounds the depth of the search. -/
def value? : Nat → List Char → Option (LayerValue × List Char)
  | 0, _ => none
  | depth + 1, s => do
    let s := s.dropWhile isSpace
    let (value, s) ←
      if "true".toList.isPrefixOf s then some (.bool true, s.drop 4)
      else if "false".toList.isPrefixOf s then some (.bool false, s.drop 5)
      else match s with
        | '\x7b' :: s => fields? depth [] s
        | '[' :: s => values? depth [] s
        | '"' :: s => (quoted? [] s).map fun (text, s) ↦ (.text (String.ofList text), s)
        | '\'' :: c :: '\'' :: s => some (.text c.toString, s)
        | '\'' :: _ => none
        | s =>
          let bare := s.takeWhile (!isSeparator ·)
          some (bareValue (Text.trim bare), s.drop bare.length)
    return (value, s.dropWhile isSpace)

/-- Reads on in a list, whose values so far are reversed. A comma may stand behind the last one. -/
def values? : Nat → List LayerValue → List Char → Option (LayerValue × List Char)
  | 0, _, _ => none
  | depth + 1, values, s =>
    if s.head? = some ']' then some (.list values.reverse, s.tail)
    else do
      let (value, s) ← value? depth s
      match s with
      | ',' :: s => values? depth (value :: values) s
      | ']' :: s => some (.list (value :: values).reverse, s)
      | _ => none

/-- Reads on in a table with the given fields. -/
def fields? : Nat → List (String × LayerValue) → List Char → Option (LayerValue × List Char)
  | 0, _, _ => none
  | depth + 1, fields, s =>
    if s.head? = some '\x7d' then some (.table fields, s.tail)
    else do
      let (key, s) ← match s.dropWhile isSpace with
        | '"' :: s => quoted? [] s
        | s =>
          let key := s.takeWhile isKeyCharacter
          if key.isEmpty then none else some (key, s.drop key.length)
      match s.dropWhile isSpace with
      | '=' :: s =>
        let (value, s) ← value? depth s
        let fields := LayerValue.setField fields (String.ofList key) value
        match s with
        | ',' :: s => fields? depth fields s
        | '\x7d' :: s => some (.table fields, s)
        | _ => none
      | _ => none

end

/-- What the value of a variable stands for. One that is not written as a value is a text. -/
def valueOf (s : String) : LayerValue :=
  match value? (2 * (s.length + 1)) s.toList with
  | some (value, []) => value
  | _ => .text s

/-! ### Variables -/

/-- The keys that lead to the field that a variable sets, if its name starts with the mark. Capital
letters do not count. -/
def keys? (mark separator name : String) : Option (List String) :=
  let name := (Text.trim name.toList).map Char.toLower
  let mark := mark.toList.map Char.toLower
  if mark.isPrefixOf name then
    let dotted := ((String.ofList (name.drop mark.length)).replace separator ".").toList
    let keys := Text.split '.' (Text.trim dotted)
    if keys.any (·.isEmpty) then none else some (keys.map String.ofList)
  else none

/-- What the environment sets, variable by variable in the order of their names. -/
def layer (mark separator : String) (environment : List (String × String)) : LayerValue :=
  (environment.mergeSort (·.1 ≤ ·.1)).foldl (fun layer (name, value) ↦
    match keys? mark separator name with
    | some keys => layer.overlay (.nest keys (valueOf value))
    | none => layer) (.table [])

end DoubleDispatch.Environment
