/-!
# Generated declarations and their layout

The declarations of a generated file, and how they are written: line by line, by a pen that steps
in behind an opening brace and out before a closing one. A line is indented by four spaces for each
level the pen stands at, and ends with a line break.
-/

namespace DoubleDispatch

/-- A parameter of a method. -/
structure Parameter where
  type : String
  name : String
deriving DecidableEq, Repr, Inhabited

/-- A method. Without an expression it is a signature only. -/
structure Method where
  modifiers : List String
  returnType : String
  name : String
  typeParameters : List String
  parameters : List Parameter
  expression : Option String
deriving DecidableEq, Repr, Inhabited

/-- A type with methods. -/
structure TypeBlock where
  modifiers : List String
  keyword : String
  name : String
  typeParameters : List String
  methods : List Method
deriving DecidableEq, Repr, Inhabited

/-- A declaration of a generated file. -/
inductive Item where
  | type (block : TypeBlock)
  | scope (name : String) (items : List Item)
deriving Repr, Inhabited

/-- A generated file: the namespaces it imports and its declarations. -/
structure GeneratedFile where
  usings : List String
  items : List Item
deriving Repr, Inhabited

/-- The items inside a namespace, if one is given. -/
def Item.within (ns : Option String) (items : List Item) : List Item :=
  match ns with
  | some name => [.scope name items]
  | none => items

/-! ### Layout -/

namespace Layout

/-- Words with spaces between them, and one more behind them unless there is nothing to write. -/
def spaced (words : List String) : String :=
  let text := " ".intercalate words
  if text.isEmpty then "" else text ++ " "

/-- A list of type parameters in angle brackets; nothing if there are none. -/
def typeParameterList (names : List String) : String :=
  if names.isEmpty then "" else "<" ++ ", ".intercalate names ++ ">"

/-- What a pen is told: to write a line, or to step one level in or out. -/
inductive Stroke where
  | line (text : String)
  | enter
  | leave
deriving DecidableEq, Repr, Inhabited

/-- A header and, in braces and one level further in, what belongs to it. -/
def Stroke.block (header : String) (body : List Stroke) : List Stroke :=
  .line header :: .line "\x7b" :: .enter :: body ++ [.leave, .line "\x7d"]

/-- A pen: the text behind it and the level it stands at. -/
structure Pen where
  text : String
  depth : Nat
deriving DecidableEq, Repr, Inhabited

namespace Pen

/-- The pen at the start of a file. -/
def start : Pen := ⟨"", 0⟩

/-- A pen that steps out at the margin stays there. -/
def draw (pen : Pen) : Stroke → Pen
  | .line text =>
    let indentation := String.join (List.replicate pen.depth "    ")
    { pen with text := pen.text ++ indentation ++ text ++ "\n" }
  | .enter => { pen with depth := pen.depth + 1 }
  | .leave => { pen with depth := pen.depth - 1 }

end Pen

end Layout

/-- A method on one line. -/
def Method.line (m : Method) : String :=
  let parameters := ", ".intercalate (m.parameters.map fun p ↦ p.type ++ " " ++ p.name)
  let body := match m.expression with
    | some expression => " => " ++ expression
    | none => ""
  Layout.spaced m.modifiers ++ m.returnType ++ " " ++ m.name ++
    Layout.typeParameterList m.typeParameters ++ "(" ++ parameters ++ ")" ++ body ++ ";"

/-- The header of a type. -/
def TypeBlock.header (t : TypeBlock) : String :=
  Layout.spaced t.modifiers ++ t.keyword ++ " " ++ t.name ++
    Layout.typeParameterList t.typeParameters

open Layout (Stroke Pen)

mutual

/-- How a declaration is written. -/
def Item.strokes : Item → List Stroke
  | .type t => Stroke.block t.header (t.methods.map fun m ↦ .line m.line)
  | .scope name items => Stroke.block ("namespace " ++ name) (strokesOf items)

/-- How declarations are written one after the other. -/
def strokesOf : List Item → List Stroke
  | [] => []
  | item :: items => item.strokes ++ strokesOf items

end

namespace GeneratedFile

/-- How a file is written. -/
def strokes (file : GeneratedFile) : List Stroke :=
  file.usings.map (fun u ↦ .line ("using " ++ u ++ ";")) ++ strokesOf file.items

/-- The text of a file. -/
def render (file : GeneratedFile) : String := (file.strokes.foldl Pen.draw .start).text

end GeneratedFile

end DoubleDispatch
