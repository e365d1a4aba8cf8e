import DoubleDispatch.Parsing
import DoubleDispatch.Symbol
import DoubleDispatch.Text.Split

/-!
# Scopes

Every declaration stands in a chain of levels: one for each segment of the namespaces around it,
innermost first, and last the file. A level has a namespace and the using directives that apply at
it. Global using directives apply at the file level of every file, behind those of the file.
-/

namespace DoubleDispatch

/-- One level of scope. -/
structure Level where
  ns : Namespace
  usings : List UsingDirective
deriving DecidableEq, Repr, Inhabited

/-- A type declaration with its place: the number of its tree, the symbol it declares, and the
levels around it, innermost first. -/
structure PlacedDeclaration where
  tree : Nat
  declaration : TypeDeclaration
  symbol : Symbol
  levels : List Level
deriving DecidableEq, Repr, Inhabited

namespace Level

/-- The directives that apply in their own file or namespace only. -/
def localUsings (usings : List UsingDirective) : List UsingDirective :=
  usings.filter (!·.isGlobal)

/-- The namespace of the innermost of the levels. -/
def innermost (levels : List Level) : Namespace := (levels.head?.map (·.ns)).getD .global

/-- The levels inside a namespace with the given segments. The directives of the namespace apply at
the level of its last segment. -/
def enter (levels : List Level) (usings : List UsingDirective) : List String → List Level
  | [] => levels
  | [segment] => ⟨(innermost levels).child segment, localUsings usings⟩ :: levels
  | segment :: segments =>
    enter (⟨(innermost levels).child segment, []⟩ :: levels) usings segments

/-- The segments of a dotted name. -/
def segments (name : String) : List String := (Text.split '.' name.toList).map String.ofList

end Level

mutual

/-- The declarations of a member that stands inside the given levels, in source order. -/
def Member.placed (tree : Nat) (levels : List Level) : Member → List PlacedDeclaration
  | .type d => [⟨tree, d, .ofDeclaration (Level.innermost levels) d, levels⟩]
  | .scope name _ usings members _ =>
    placedOf tree (Level.enter levels usings (Level.segments name)) members

/-- The declarations of members that stand inside the given levels, in source order. -/
def placedOf (tree : Nat) (levels : List Level) : List Member → List PlacedDeclaration
  | [] => []
  | m :: ms => m.placed tree levels ++ placedOf tree levels ms

/-- The global directives of a member. -/
def Member.globalUsings : Member → List UsingDirective
  | .type _ => []
  | .scope _ _ usings members _ => usings.filter (·.isGlobal) ++ globalUsingsOf members

/-- The global directives of a list of members. -/
def globalUsingsOf : List Member → List UsingDirective
  | [] => []
  | m :: ms => m.globalUsings ++ globalUsingsOf ms

end

namespace SourceFile

/-- The global directives of a file, wherever they stand in it. -/
def globalUsings (file : SourceFile) : List UsingDirective :=
  file.usings.filter (·.isGlobal) ++ globalUsingsOf file.members

/-- The declarations of a file in source order, in the tree with the given number, where the given
global directives apply. -/
def placed (file : SourceFile) (tree : Nat) (globals : List UsingDirective) :
    List PlacedDeclaration :=
  placedOf tree [⟨.global, Level.localUsings file.usings ++ globals⟩] file.members

end SourceFile

end DoubleDispatch
