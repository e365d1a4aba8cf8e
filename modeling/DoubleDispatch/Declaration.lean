import DoubleDispatch.Source.Span
import DoubleDispatch.Text.Identifier

/-!
# Declarations

What tooling needs to know of a source: using directives, the nesting of namespaces, and the
headers of type declarations. The bodies of types are not represented.
-/

namespace DoubleDispatch

/-- The kinds of type declaration. -/
inductive TypeKind where
  | classType
  | structType
  | interfaceType
  | enumType
  | recordType
  | recordStruct
deriving DecidableEq, Repr, Inhabited

namespace TypeKind

/-- The words that declare a type of this kind. -/
def keyword : TypeKind → String
  | classType => "class"
  | structType => "struct"
  | interfaceType => "interface"
  | enumType => "enum"
  | recordType => "record"
  | recordStruct => "record struct"

/-- Whether a type of this kind can implement an interface and hold instance methods. -/
def isImplementor : TypeKind → Bool
  | classType | structType | recordType | recordStruct => true
  | interfaceType | enumType => false

end TypeKind

/-- What a using directive brings into scope. -/
inductive UsingKind where
  /-- The types of a namespace. -/
  | types
  /-- The static members of a type. -/
  | staticMembers
  /-- One name for the target. -/
  | alias (name : String)
deriving DecidableEq, Repr, Inhabited

/-- A using directive. The target is held as it is written, without a leading `global::`. -/
structure UsingDirective where
  kind : UsingKind
  target : String
  isGlobal : Bool
  span : Span
deriving DecidableEq, Repr, Inhabited

/-- An attribute by the name it is written with. -/
structure Attribute where
  name : String
  span : Span
deriving DecidableEq, Repr, Inhabited

/-- One section of attributes in square brackets, with the target it may be written for. -/
structure AttributeSection where
  target : Option String
  attributes : List Attribute
  span : Span
deriving DecidableEq, Repr, Inhabited

/-- One entry of the list of base types, with its type arguments but without the arguments of a
base constructor. -/
structure BaseEntry where
  text : String
  span : Span
deriving DecidableEq, Repr, Inhabited

/-- The name of an entry that is a bare identifier, without qualifier and type arguments. -/
def BaseEntry.simpleName? (base : BaseEntry) : Option String :=
  let text := Text.trim base.text.toList
  if Text.isIdentifier text then some (String.ofList text) else none

/-- The header of a type declaration. -/
structure TypeDeclaration where
  /-- The number of type declarations before this one in its file. As a natural number it never
  overflows, where a counter of 32 bits does behind `2 ^ 32` declarations. -/
  ordinal : Nat
  kind : TypeKind
  name : String
  typeParameters : List String
  modifiers : List String
  sections : List AttributeSection
  bases : List BaseEntry
  nameSpan : Span
  span : Span
deriving DecidableEq, Repr, Inhabited

/-- The modifiers that say who may see a type. -/
def accessibilityModifiers : List String := ["public", "protected", "internal", "private", "file"]

namespace TypeDeclaration

/-- Whether a modifier is among those of the declaration. -/
def hasModifier (d : TypeDeclaration) (modifier : String) : Bool := d.modifiers.contains modifier

/-- Whether other declarations may continue the type. -/
def isPartial (d : TypeDeclaration) : Bool := d.hasModifier "partial"

/-- Whether the type is visible in its own file only. -/
def isFileLocal (d : TypeDeclaration) : Bool := d.hasModifier "file"

/-- The accessibility that the declaration states, if it states one: its accessibility modifiers
in the order they are written. -/
def accessibility? (d : TypeDeclaration) : Option String :=
  match d.modifiers.filter (accessibilityModifiers.contains ·) with
  | [] => none
  | words => some (" ".intercalate words)

/-- The attributes of all sections in source order. -/
def attributes (d : TypeDeclaration) : List Attribute := d.sections.flatMap (·.attributes)

/-- The number of type parameters. -/
def arity (d : TypeDeclaration) : Nat := d.typeParameters.length

end TypeDeclaration

/-- A member of a file or of a namespace. -/
inductive Member where
  | type (declaration : TypeDeclaration)
  /-- A namespace with a dotted name; it is file-scoped when it ends with what encloses it. -/
  | scope (name : String) (fileScoped : Bool) (usings : List UsingDirective)
      (members : List Member) (span : Span)
deriving Repr, Inhabited

/-- What a file holds. -/
structure SourceFile where
  usings : List UsingDirective
  members : List Member
deriving Repr, Inhabited

mutual

/-- The type declarations of a member in source order. -/
def Member.types : Member → List TypeDeclaration
  | .type declaration => [declaration]
  | .scope _ _ _ members _ => typesOf members

/-- The type declarations of a list of members in source order. -/
def typesOf : List Member → List TypeDeclaration
  | [] => []
  | m :: ms => m.types ++ typesOf ms

end

/-- Every type declaration of a file in source order. -/
def SourceFile.types (file : SourceFile) : List TypeDeclaration := typesOf file.members

end DoubleDispatch
