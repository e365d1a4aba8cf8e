/-!
# JSON texts

Values of the data format JSON and their indented form: one member a line, two more spaces a level,
and nothing between the brackets of an empty collection.
-/

namespace DoubleDispatch

/-- A JSON value without numbers. -/
inductive JsonValue where
  | null
  | bool (b : Bool)
  | text (s : String)
  | list (values : List JsonValue)
  | object (fields : List (String × JsonValue))
deriving Repr, Inhabited

namespace JsonValue

/-- A text, or null. -/
def ofText? : Option String → JsonValue
  | some s => text s
  | none => null

/-- A list of texts. -/
def texts (ss : List String) : JsonValue := list (ss.map text)

/-- The written form of a character in a text. Only quotes, backslashes and controls are escaped. -/
def escape (c : Char) : List Char :=
  match c with
  | '"' => ['\\', '"']
  | '\\' => ['\\', '\\']
  | '\x08' => ['\\', 'b']
  | '\t' => ['\\', 't']
  | '\n' => ['\\', 'n']
  | '\x0c' => ['\\', 'f']
  | '\r' => ['\\', 'r']
  | c =>
    if c.toNat < 0x20 then
      ['\\', 'u', '0', '0', (c.toNat / 16).digitChar, (c.toNat % 16).digitChar]
    else [c]

/-- A text in quotes. -/
def quoted (s : String) : String := String.ofList (['"'] ++ s.toList.flatMap escape ++ ['"'])

/-- The start of a line at a level. -/
def indent (level : Nat) : String := String.ofList (List.replicate (2 * level) ' ')

/-- Lines between brackets, the brackets themselves if there are none. -/
def enclose (level : Nat) (opening closing : String) (lines : List String) : String :=
  if lines.isEmpty then opening ++ closing
  else
    opening ++ "\n" ++ ",\n".intercalate (lines.map (indent (level + 1) ++ ·)) ++ "\n" ++
      indent level ++ closing

mutual

/-- The indented form of a value that starts at a level. -/
def render (level : Nat) : JsonValue → String
  | null => "null"
  | bool b => if b then "true" else "false"
  | text s => quoted s
  | list values => enclose level "[" "]" (renderAll (level + 1) values)
  | object fields => enclose level "\x7b" "\x7d" (renderFields (level + 1) fields)

/-- The indented forms of the members of a list. -/
def renderAll (level : Nat) : List JsonValue → List String
  | [] => []
  | value :: values => render level value :: renderAll level values

/-- The indented forms of the members of an object. -/
def renderFields (level : Nat) : List (String × JsonValue) → List String
  | [] => []
  | (key, value) :: fields =>
    (quoted key ++ ": " ++ render level value) :: renderFields level fields

end

/-- The indented form of a value. -/
def pretty (j : JsonValue) : String := j.render 0

end JsonValue

end DoubleDispatch
