import DoubleDispatch.Parsing
import DoubleDispatch.Proofs.Token.Piece

/-!
# Declarations that can be printed

The syntax of declarations, such that whatever is built from it can be written out and read again:
names are not words with a meaning of their own, a file-scoped namespace has nothing behind it in
its body, the entries of a base list are type names, and the bodies of types are groups.

Each form is written as pieces in front of those behind it, in the layout of generated files: one
declaration to a line, indented by four spaces for each namespace in braces, with braces on lines of
their own. `File.tree` is the tree that a file stands for; it has no spans, and its types are
numbered in document order.
-/

namespace DoubleDispatch

/-! ### Trees without spans -/

/-- The directive without its span. -/
def UsingDirective.withoutSpan (u : UsingDirective) : UsingDirective := { u with span := ⟨0, 0⟩ }

/-- The attribute without its span. -/
def Attribute.withoutSpan (a : Attribute) : Attribute := { a with span := ⟨0, 0⟩ }

/-- The section without its span and those of its attributes. -/
def AttributeSection.withoutSpans (s : AttributeSection) : AttributeSection where
  target := s.target
  attributes := s.attributes.map Attribute.withoutSpan
  span := ⟨0, 0⟩

/-- The base entry without its span. -/
def BaseEntry.withoutSpan (base : BaseEntry) : BaseEntry := { base with span := ⟨0, 0⟩ }

/-- The declaration without its spans. -/
def TypeDeclaration.withoutSpans (d : TypeDeclaration) : TypeDeclaration where
  ordinal := d.ordinal
  kind := d.kind
  name := d.name
  typeParameters := d.typeParameters
  modifiers := d.modifiers
  sections := d.sections.map AttributeSection.withoutSpans
  bases := d.bases.map BaseEntry.withoutSpan
  nameSpan := ⟨0, 0⟩
  span := ⟨0, 0⟩

mutual

/-- The member without spans. -/
def Member.withoutSpans : Member → Member
  | .type d => .type d.withoutSpans
  | .scope name fileScoped usings members _ =>
    .scope name fileScoped (usings.map UsingDirective.withoutSpan) (membersWithoutSpans members)
      ⟨0, 0⟩

/-- The members without spans. -/
def membersWithoutSpans : List Member → List Member
  | [] => []
  | m :: ms => m.withoutSpans :: membersWithoutSpans ms

end

/-- The tree of a file without spans. -/
def SourceFile.withoutSpans (file : SourceFile) : SourceFile :=
  ⟨file.usings.map UsingDirective.withoutSpan, membersWithoutSpans file.members⟩

namespace Syntax

open Piece (textOf)

/-! ### Words -/

/-- The words that a parser of declarations gives a meaning to. -/
def reservedWords : List String :=
  Stream.modifierWords ++
    ["class", "struct", "interface", "enum", "record", "namespace", "using", "where"]

/-- A name: an identifier that is not a reserved word. -/
structure Name extends Word where
  notReserved : name ∉ reservedWords

theorem isIdentifier_of_mem_modifierWords :
    ∀ word ∈ Stream.modifierWords, Text.isIdentifier word.toList := by decide

/-- A modifier of a type. -/
structure Modifier where
  name : String
  isModifier : name ∈ Stream.modifierWords

namespace Modifier

/-- The word of a modifier. -/
def word (m : Modifier) : Word := ⟨m.name, isIdentifier_of_mem_modifierWords _ m.isModifier⟩

end Modifier

/-- The word that starts a using directive. -/
def usingWord : Word := ⟨"using", by decide⟩

/-- The word that makes a using directive global. -/
def globalWord : Word := ⟨"global", by decide⟩

/-- The word that makes a using directive import static members. -/
def staticWord : Word := ⟨"static", by decide⟩

/-- The word that starts a namespace. -/
def namespaceWord : Word := ⟨"namespace", by decide⟩

/-- The word that declares a class. -/
def classWord : Word := ⟨"class", by decide⟩

/-- The word that declares a struct, or makes a record one. -/
def structWord : Word := ⟨"struct", by decide⟩

/-- The word that declares an interface. -/
def interfaceWord : Word := ⟨"interface", by decide⟩

/-- The word that declares an enumeration. -/
def enumWord : Word := ⟨"enum", by decide⟩

/-- The word that declares a record. -/
def recordWord : Word := ⟨"record", by decide⟩

/-! ### Names of types and namespaces -/

/-- A dotted name such as that of a namespace. -/
structure DottedName where
  first : Name
  later : List Name

namespace DottedName

/-- The parts of a dotted name. -/
def names (n : DottedName) : List Name := n.first :: n.later

/-- The name as one text. -/
def text (n : DottedName) : String := ".".intercalate (n.names.map (·.name))

/-- The dots and names behind the first name. -/
def writeLater : List Name → List Piece → List Piece
  | [], rest => rest
  | name :: names, rest => .mark .dot :: .word name.toWord :: writeLater names rest

/-- The pieces of a dotted name. -/
def write (n : DottedName) (rest : List Piece) : List Piece :=
  .word n.first.toWord :: writeLater n.later rest

end DottedName

/-- What joins a name to its qualifier. -/
inductive Joint where
  | dot
  | doubleColon
deriving DecidableEq, Repr

namespace Joint

/-- The mark of a joint. -/
def mark : Joint → Mark
  | dot => .dot
  | doubleColon => .doubleColon

end Joint

mutual

/-- The name of a type, which may be qualified and carry type arguments. `arrays` says whether names
of array types are allowed. -/
inductive TypeName (arrays : Bool) where
  | word (name : Name)
  | member (outer : TypeName arrays) (joint : Joint) (name : Name)
  | generic (outer : TypeName arrays) (arguments : TypeArguments arrays)
  | array (allowed : arrays = true) (element : TypeName arrays) (rank : Group .bracket)

/-- Type arguments. There is at least one of them, and white space may stand behind a comma. -/
inductive TypeArguments (arrays : Bool) where
  | last (argument : TypeName arrays)
  | more (argument : TypeName arrays) (gap : Blank) (later : TypeArguments arrays)

end

variable {arrays : Bool}

mutual

/-- The pieces of a type name. -/
def TypeName.write : TypeName arrays → List Piece → List Piece
  | .word name, rest => .word name.toWord :: rest
  | .member outer joint name, rest => outer.write (.mark joint.mark :: .word name.toWord :: rest)
  | .generic outer arguments, rest =>
    outer.write (.mark .less :: arguments.write (.mark .greater :: rest))
  | .array _ element rank, rest => element.write (.group rank :: rest)

/-- The pieces of type arguments. -/
def TypeArguments.write : TypeArguments arrays → List Piece → List Piece
  | .last argument, rest => argument.write rest
  | .more argument gap later, rest =>
    argument.write (.mark .comma :: .blank gap :: later.write rest)

end

/-- A type name as one text. -/
def TypeName.text (t : TypeName arrays) : String := String.ofList (textOf (t.write []))

/-- What a directive or an attribute names. It is no array and does not start with `global::`. -/
structure Target where
  name : TypeName false
  notGlobal : "global::".toList.isPrefixOf name.text.toList = false

/-! ### Using directives -/

/-- The forms of a using directive. -/
inductive UsingForm where
  | types
  | staticMembers
  | alias (name : Name)

namespace UsingForm

/-- What a directive of this form brings into scope. -/
def tree : UsingForm → UsingKind
  | types => .types
  | staticMembers => .staticMembers
  | .alias name => .alias name.name

/-- The words before the target. -/
def write : UsingForm → List Piece → List Piece
  | types, rest => rest
  | staticMembers, rest => .word staticWord :: .blank .space :: rest
  | .alias name, rest =>
    .word name.toWord :: .blank .space :: .mark .equals :: .blank .space :: rest

end UsingForm

/-- A using directive. -/
structure Using where
  form : UsingForm
  target : Target
  isGlobal : Bool

namespace Using

/-- The directive that is read, with an empty span. -/
def tree (u : Using) : UsingDirective := ⟨u.form.tree, u.target.name.text, u.isGlobal, ⟨0, 0⟩⟩

/-- The pieces from the word `using` on. -/
def writeLocal (u : Using) (rest : List Piece) : List Piece :=
  .word usingWord :: .blank .space ::
    u.form.write (u.target.name.write (.mark .semicolon :: rest))

/-- The pieces of a directive. -/
def write (u : Using) (rest : List Piece) : List Piece :=
  if u.isGlobal then .word globalWord :: .blank .space :: u.writeLocal rest else u.writeLocal rest

/-- Directives line by line. -/
def writeLines (depth : Nat) : List Using → List Piece → List Piece
  | [], rest => rest
  | u :: us, rest =>
    .blank (.indent depth) :: u.write (.blank .lineBreak :: writeLines depth us rest)

end Using

/-! ### Attributes -/

/-- An attribute. -/
structure Attribute where
  name : Target
  arguments : Option (Group .paren)

namespace Attribute

/-- The attribute that is read, with an empty span. -/
def tree (a : Attribute) : DoubleDispatch.Attribute := ⟨a.name.name.text, ⟨0, 0⟩⟩

/-- The arguments, if there are any. -/
def writeArguments (arguments : Option (Group .paren)) (rest : List Piece) : List Piece :=
  match arguments with
  | none => rest
  | some g => .group g :: rest

/-- The pieces of an attribute. -/
def write (a : Attribute) (rest : List Piece) : List Piece :=
  a.name.name.write (writeArguments a.arguments rest)

/-- Attributes with commas before them. -/
def writeLater : List Attribute → List Piece → List Piece
  | [], rest => rest
  | a :: as, rest => .mark .comma :: .blank .space :: a.write (writeLater as rest)

end Attribute

/-- The target of a section of attributes that belongs to the declaration behind it. -/
structure SectionTarget extends Name where
  isOwn : name ≠ "assembly" ∧ name ≠ "module"

/-- A section of attributes. -/
structure Section where
  target : Option SectionTarget
  first : Attribute
  later : List Attribute

namespace Section

/-- The section that is read, with an empty span. -/
def tree (s : Section) : AttributeSection where
  target := s.target.map (·.name)
  attributes := (s.first :: s.later).map Attribute.tree
  span := ⟨0, 0⟩

/-- The target, if there is one. -/
def writeTarget (target : Option SectionTarget) (rest : List Piece) : List Piece :=
  match target with
  | none => rest
  | some name => .word name.toWord :: .mark .colon :: .blank .space :: rest

/-- The pieces of a section. -/
def write (s : Section) (rest : List Piece) : List Piece :=
  .mark .openBracket :: writeTarget s.target
    (s.first.write (Attribute.writeLater s.later (.mark .closeBracket :: rest)))

/-- Sections, each on a line of its own. -/
def writeLines (depth : Nat) : List Section → List Piece → List Piece
  | [], rest => rest
  | s :: ss, rest =>
    s.write (.blank .lineBreak :: .blank (.indent depth) :: writeLines depth ss rest)

end Section

/-! ### Types -/

/-- The words that declare a type of a kind. -/
def writeKind (kind : TypeKind) (rest : List Piece) : List Piece :=
  match kind with
  | .classType => .word classWord :: rest
  | .structType => .word structWord :: rest
  | .interfaceType => .word interfaceWord :: rest
  | .enumType => .word enumWord :: rest
  | .recordType => .word recordWord :: rest
  | .recordStruct => .word recordWord :: .blank .space :: .word structWord :: rest

/-- Words with a space behind each. -/
def writeModifiers : List Modifier → List Piece → List Piece
  | [], rest => rest
  | m :: ms, rest => .word m.word :: .blank .space :: writeModifiers ms rest

/-- Names with commas before them. -/
def writeLaterNames : List Name → List Piece → List Piece
  | [], rest => rest
  | name :: names, rest =>
    .mark .comma :: .blank .space :: .word name.toWord :: writeLaterNames names rest

/-- A list of type parameters in angle brackets; nothing if there are none. -/
def writeTypeParameters : List Name → List Piece → List Piece
  | [], rest => rest
  | name :: names, rest =>
    .mark .less :: .word name.toWord :: writeLaterNames names (.mark .greater :: rest)

/-- Type names with commas before them. -/
def writeLaterBases : List (TypeName true) → List Piece → List Piece
  | [], rest => rest
  | base :: bases, rest =>
    .mark .comma :: .blank .space :: base.write (writeLaterBases bases rest)

/-- A list of base types behind a colon; nothing if there are none. -/
def writeBases : List (TypeName true) → List Piece → List Piece
  | [], rest => rest
  | base :: bases, rest =>
    .blank .space :: .mark .colon :: .blank .space :: base.write (writeLaterBases bases rest)

/-- A type declaration. -/
structure Declaration where
  sections : List Section
  modifiers : List Modifier
  kind : TypeKind
  name : Name
  typeParameters : List Name
  bases : List (TypeName true)
  body : Group .brace

namespace Declaration

/-- The declaration that is read, with empty spans. -/
def tree (ordinal : Nat) (d : Declaration) : TypeDeclaration where
  ordinal := ordinal
  kind := d.kind
  name := d.name.name
  typeParameters := d.typeParameters.map (·.name)
  modifiers := d.modifiers.map (·.name)
  sections := d.sections.map Section.tree
  bases := d.bases.map fun base ↦ ⟨base.text, ⟨0, 0⟩⟩
  nameSpan := ⟨0, 0⟩
  span := ⟨0, 0⟩

/-- The pieces from the name on. -/
def writeName (d : Declaration) (depth : Nat) (rest : List Piece) : List Piece :=
  .word d.name.toWord :: writeTypeParameters d.typeParameters (writeBases d.bases
    (.blank .lineBreak :: .blank (.indent depth) :: .group d.body :: rest))

/-- The pieces of a declaration. -/
def write (d : Declaration) (depth : Nat) (rest : List Piece) : List Piece :=
  Section.writeLines depth d.sections (writeModifiers d.modifiers
    (writeKind d.kind (.blank .space :: d.writeName depth rest)))

end Declaration

/-! ### Members and files -/

/-- The members of a body. Behind a namespace in braces there may be more of them; a file-scoped one
takes all that is left. -/
inductive Members where
  | nil
  | type (declaration : Declaration) (later : Members)
  | scope (name : DottedName) (usings : List Using) (content later : Members)
  | fileScoped (name : DottedName) (usings : List Using) (content : Members)

namespace Members

/-- The number of type declarations. -/
def size : Members → Nat
  | nil => 0
  | type _ later => 1 + later.size
  | scope _ _ content later => content.size + later.size
  | fileScoped _ _ content => content.size

/-- The members that are read, with empty spans, where the next type has the given ordinal. -/
def tree (ordinal : Nat) : Members → List Member
  | nil => []
  | type declaration later => .type (declaration.tree ordinal) :: later.tree (ordinal + 1)
  | scope name usings content later =>
    .scope name.text false (usings.map Using.tree) (content.tree ordinal) ⟨0, 0⟩ ::
      later.tree (ordinal + content.size)
  | fileScoped name usings content =>
    [.scope name.text true (usings.map Using.tree) (content.tree ordinal) ⟨0, 0⟩]

/-- The pieces of members at a depth of indentation. -/
def write (depth : Nat) : Members → List Piece → List Piece
  | nil, rest => rest
  | type declaration later, rest =>
    .blank (.indent depth) :: declaration.write depth (.blank .lineBreak :: later.write depth rest)
  | scope name usings content later, rest =>
    .blank (.indent depth) :: .word namespaceWord :: .blank .space :: name.write
      (.blank .lineBreak :: .blank (.indent depth) :: .mark .openBrace :: .blank .lineBreak ::
        Using.writeLines (depth + 1) usings (content.write (depth + 1)
          (.blank (.indent depth) :: .mark .closeBrace :: .blank .lineBreak ::
            later.write depth rest)))
  | fileScoped name usings content, rest =>
    .blank (.indent depth) :: .word namespaceWord :: .blank .space :: name.write
      (.mark .semicolon :: .blank .lineBreak ::
        Using.writeLines depth usings (content.write depth rest))

end Members

/-- A file. -/
structure File where
  usings : List Using
  members : Members

namespace File

/-- The tree that is read, with empty spans. -/
def tree (f : File) : SourceFile := ⟨f.usings.map Using.tree, f.members.tree 0⟩

/-- The pieces of a file. -/
def write (f : File) : List Piece := Using.writeLines 0 f.usings (f.members.write 0 [])

/-- The text of a file. -/
def text (f : File) : String := String.ofList (textOf f.write)

end File

end Syntax

end DoubleDispatch
