import DoubleDispatch.Proofs.Emission.Layout
import DoubleDispatch.Proofs.Printing

/-!
# Generated files are read back

A generated file whose names are names of declarations, however deep its namespaces are nested, has
the text of a printed file. So it is accepted, and what is read is its outline: the imports, the
namespaces and the headers of its types (`Syntax.Outline.exists_parse_render`). The methods stand in
the bodies of the types, which are groups.
-/

namespace DoubleDispatch

open Piece (textOf Ends ends_cons)

namespace Syntax

/-! ### Dotted names -/

namespace DottedName

/-- A dotted name as the name of a type or namespace in a directive. -/
def typeName (n : DottedName) : TypeName false :=
  n.later.foldl (fun outer name ↦ .member outer .dot name) (.word n.first)

/-- The text of a dotted name has a dot before each later name. -/
theorem toList_text (n : DottedName) :
    n.text.toList = n.first.name.toList ++ n.later.flatMap fun name ↦ '.' :: name.name.toList := by
  rw [text, names, List.map_cons, toList_intercalate_cons, List.flatMap_map]
  rfl

/-- A dotted name is printed as its text. -/
theorem textOf_write (n : DottedName) (rest : List Piece) :
    textOf (n.write rest) = n.text.toList ++ textOf rest := by
  have hlater (names : List Name) : textOf (writeLater names rest) =
      (names.flatMap fun name ↦ '.' :: name.name.toList) ++ textOf rest := by
    induction names with
    | nil => rfl
    | cons name names ih =>
      rw [writeLater, Piece.textOf_cons, Piece.textOf_cons, ih, List.flatMap_cons]
      simp [Piece.text, Mark.text]
  rw [write, Piece.textOf_cons, hlater, n.toList_text, List.append_assoc]
  rfl

/-- A dotted name has the same text as a type name. -/
theorem toList_text_typeName (n : DottedName) : n.typeName.text.toList = n.text.toList := by
  have hlater (names : List Name) (outer : TypeName false) :
      textOf ((names.foldl (fun outer name ↦ .member outer .dot name) outer).write []) =
        textOf (outer.write []) ++ names.flatMap fun name ↦ '.' :: name.name.toList := by
    induction names generalizing outer with
    | nil => simp
    | cons name names ih =>
      rw [List.foldl_cons, ih, TypeName.write, outer.textOf_write, List.flatMap_cons]
      simp [Joint.mark, Piece.text, Mark.text]
  rw [TypeName.text, String.toList_ofList, typeName, hlater, n.toList_text]
  simp [TypeName.write, Piece.text]

/-- A dotted name has no colon. -/
theorem colon_notMem_text (n : DottedName) : ':' ∉ n.text.toList := by
  have hname (name : Name) : ':' ∉ name.name.toList := by
    intro hmem
    have hcolon := Text.continuesIdentifier_of_isIdentifier name.isIdentifier _ hmem
    revert hcolon
    decide
  rw [n.toList_text, List.mem_append, List.mem_flatMap]
  rintro (hmem | ⟨name, -, hmem⟩)
  · exact hname n.first hmem
  · rcases List.mem_cons.1 hmem with hdot | hmem
    · cases hdot
    · exact hname name hmem

/-- The directive that imports a namespace. -/
def directive (n : DottedName) : Using where
  form := .types
  target.name := n.typeName
  target.notGlobal := by
    rw [n.toList_text_typeName, Bool.eq_false_iff, Ne, List.isPrefixOf_iff_prefix]
    intro hglobal
    exact n.colon_notMem_text (hglobal.subset (by decide))
  isGlobal := false

theorem tree_directive (n : DottedName) : n.directive.tree = ⟨.types, n.text, false, ⟨0, 0⟩⟩ := by
  have htext : n.typeName.text = n.text := String.toList_injective n.toList_text_typeName
  rw [Using.tree, directive, htext]
  rfl

/-- A directive is printed as the line that is generated for it. -/
theorem textOf_write_directive (n : DottedName) (rest : List Piece) :
    textOf (n.directive.write rest) = ("using " ++ n.text ++ ";").toList ++ textOf rest := by
  rw [Using.write, directive, if_neg Bool.false_ne_true, Using.writeLocal, UsingForm.write,
    Piece.textOf_cons, Piece.textOf_cons, TypeName.textOf_write]
  have htarget : textOf (n.typeName.write []) = n.text.toList := by
    rw [← n.toList_text_typeName, TypeName.text, String.toList_ofList]
  rw [htarget]
  simp [Piece.text, usingWord, Blank.space, Mark.text]

end DottedName

/-! ### Headers -/

/-- Modifiers are printed as they are generated. -/
theorem textOf_writeModifiers (modifiers : List Modifier) (rest : List Piece) :
    textOf (writeModifiers modifiers rest) =
      (Layout.spaced (modifiers.map (·.name))).toList ++ textOf rest := by
  have hne : ∀ word ∈ modifiers.map (·.name), word ≠ "" := by
    rw [List.forall_mem_map]
    intro m _ hempty
    have hword := isIdentifier_of_mem_modifierWords m.name m.isModifier
    rw [hempty] at hword
    cases hword
  rw [Layout.toList_spaced hne, List.flatMap_map]
  clear hne
  induction modifiers with
  | nil => rfl
  | cons m modifiers ih =>
    rw [writeModifiers, Piece.textOf_cons, Piece.textOf_cons, ih, List.flatMap_cons]
    simp [Piece.text, Modifier.word, Blank.space]

theorem textOf_writeKind (kind : TypeKind) (rest : List Piece) :
    textOf (writeKind kind rest) = kind.keyword.toList ++ textOf rest := by
  cases kind <;> rfl

/-- Type parameters are printed as they are generated. -/
theorem textOf_writeTypeParameters (names : List Name) (rest : List Piece) :
    textOf (writeTypeParameters names rest) =
      (Layout.typeParameterList (names.map (·.name))).toList ++ textOf rest := by
  have hlater (names : List Name) (rest : List Piece) : textOf (writeLaterNames names rest) =
      (names.flatMap fun name ↦ ", ".toList ++ name.name.toList) ++ textOf rest := by
    induction names with
    | nil => rfl
    | cons name names ih =>
      rw [writeLaterNames, Piece.textOf_cons, Piece.textOf_cons, Piece.textOf_cons, ih,
        List.flatMap_cons]
      simp [Piece.text, Mark.text, Blank.space]
  cases names with
  | nil => rfl
  | cons name names =>
    rw [writeTypeParameters, Piece.textOf_cons, Piece.textOf_cons, hlater, List.map_cons,
      Layout.toList_typeParameterList_cons, toList_intercalate_cons, List.flatMap_map]
    simp [Piece.text, Mark.text]

/-! ### Types -/

/-- A generated type whose header is made of names, with methods that are made of words. -/
structure Block where
  modifiers : List Modifier
  kind : TypeKind
  name : Name
  typeParameters : List Name
  methods : List Method
  wellFormed : ∀ m ∈ methods, m.IsWellFormed

namespace Block

/-- The generated type. -/
def item (b : Block) : TypeBlock where
  modifiers := b.modifiers.map (·.name)
  keyword := b.kind.keyword
  name := b.name.name
  typeParameters := b.typeParameters.map (·.name)
  methods := b.methods

/-- The declaration that is read, with empty spans. -/
def tree (ordinal : Nat) (b : Block) : TypeDeclaration where
  ordinal := ordinal
  kind := b.kind
  name := b.name.name
  typeParameters := b.typeParameters.map (·.name)
  modifiers := b.modifiers.map (·.name)
  sections := []
  bases := []
  nameSpan := ⟨0, 0⟩
  span := ⟨0, 0⟩

/-- The lines of methods may stand in the body of a type, at any depth. -/
theorem isContent_body (b : Block) (depth : Nat) :
    IsContent ('\n' :: Layout.textAt (depth + 1) (b.methods.map (·.line)) ++
      (Blank.indent depth).text) := by
  obtain ⟨-, -, -, -, methods, hmethods⟩ := b
  have hend : IsContent (Blank.indent depth).text := by
    simpa using IsContent.blank_append (.indent depth) .nil
  suffices h : IsContent (Layout.textAt (depth + 1) (methods.map (·.line)) ++
      (Blank.indent depth).text) from .blank_append .lineBreak h
  induction methods with
  | nil => exact hend
  | cons m methods ih =>
    obtain ⟨hm, hlater⟩ := List.forall_mem_cons.1 hmethods
    have hline := hm.isContent_line.append (.blank_append .lineBreak (ih hlater))
      (ends_cons (by decide) (by decide) _)
    have hindented := IsContent.blank_append (.indent (depth + 1)) hline
    simpa [Layout.textAt, Blank.lineBreak] using hindented

/-- The text of a generated type is that of a declaration. -/
theorem exists_declaration (b : Block) (depth : Nat) :
    ∃ d : Declaration, (∀ ordinal, d.tree ordinal = b.tree ordinal) ∧ ∀ rest,
      textOf (.blank (.indent depth) :: d.write depth (.blank .lineBreak :: rest)) =
        Layout.textAt depth (Item.type b.item).lines ++ textOf rest := by
  obtain ⟨body, hbody⟩ := (b.isContent_body depth).exists_group .brace
  refine ⟨⟨[], b.modifiers, b.kind, b.name, b.typeParameters, [], body⟩, fun _ ↦ rfl,
    fun rest ↦ ?_⟩
  rw [Item.lines, Layout.textAt_block, Piece.textOf_cons, Declaration.write, Section.writeLines,
    textOf_writeModifiers, textOf_writeKind, Piece.textOf_cons, Declaration.writeName,
    Piece.textOf_cons, textOf_writeTypeParameters, writeBases]
  simp [Piece.text, hbody, TypeBlock.header, item, Delimiter.enclose, Delimiter.opening,
    Delimiter.closing, Mark.text, Blank.space, Blank.lineBreak]

end Block

/-! ### Files -/

/-- The declarations of a generated file. -/
inductive Outline where
  | nil
  | type (block : Block) (later : Outline)
  | scope (name : DottedName) (content later : Outline)

namespace Outline

/-- The generated declarations. -/
def items : Outline → List Item
  | nil => []
  | type block later => .type block.item :: later.items
  | scope name content later => .scope name.text content.items :: later.items

/-- The number of types. -/
def size : Outline → Nat
  | nil => 0
  | type _ later => 1 + later.size
  | scope _ content later => content.size + later.size

/-- The members that are read, with empty spans, where the next type has the given ordinal. -/
def tree (ordinal : Nat) : Outline → List Member
  | nil => []
  | type block later => .type (block.tree ordinal) :: later.tree (ordinal + 1)
  | scope name content later =>
    .scope name.text false [] (content.tree ordinal) ⟨0, 0⟩ :: later.tree (ordinal + content.size)

/-- The text of generated declarations is that of members. -/
theorem exists_members (o : Outline) (depth : Nat) :
    ∃ m : Members, m.size = o.size ∧ (∀ ordinal, m.tree ordinal = o.tree ordinal) ∧ ∀ rest,
      textOf (m.write depth rest) = Layout.textAt depth (linesOf o.items) ++ textOf rest := by
  induction o generalizing depth with
  | nil => exact ⟨.nil, rfl, fun _ ↦ rfl, fun _ ↦ rfl⟩
  | type block later ih =>
    obtain ⟨d, htree, htext⟩ := block.exists_declaration depth
    obtain ⟨m, hsize, hlater, hrest⟩ := ih depth
    refine ⟨.type d m, ?_, fun ordinal ↦ ?_, fun rest ↦ ?_⟩
    · rw [Members.size, hsize, size]
    · rw [Members.tree, htree, hlater, tree]
    · rw [Members.write, htext, hrest, items, linesOf, Layout.textAt_append, List.append_assoc]
  | scope name content later ihcontent ihlater =>
    obtain ⟨inner, hinnerSize, hinner, hinnerText⟩ := ihcontent (depth + 1)
    obtain ⟨m, hsize, hlater, hrest⟩ := ihlater depth
    refine ⟨.scope name [] inner m, ?_, fun ordinal ↦ ?_, fun rest ↦ ?_⟩
    · rw [Members.size, hinnerSize, hsize, size]
    · rw [Members.tree, hinner, hinnerSize, hlater, tree]
      rfl
    · rw [Members.write, items, linesOf, Layout.textAt_append, Item.lines, Layout.textAt_block]
      simp [name.textOf_write, Using.writeLines, hinnerText, hrest, Piece.text, namespaceWord,
        Blank.space, Blank.lineBreak, Mark.text]

/-- **A generated file is accepted, and its outline is read.** -/
theorem exists_parse_render (usings : List DottedName) (o : Outline) :
    ∃ file, SourceFile.parse (GeneratedFile.mk (usings.map (·.text)) o.items).render = .ok file ∧
      file.withoutSpans =
        ⟨usings.map fun n ↦ ⟨.types, n.text, false, ⟨0, 0⟩⟩, o.tree 0⟩ := by
  obtain ⟨m, -, htree, htext⟩ := o.exists_members 0
  have husings (rest : List Piece) :
      textOf (Using.writeLines 0 (usings.map (·.directive)) rest) =
        Layout.textAt 0 ((usings.map (·.text)).map fun u ↦ "using " ++ u ++ ";") ++
          textOf rest := by
    induction usings with
    | nil => rfl
    | cons n usings ih =>
      rw [List.map_cons, Using.writeLines, Piece.textOf_cons, n.textOf_write_directive,
        Piece.textOf_cons, ih]
      simp [Layout.textAt, Piece.text, Blank.lineBreak]
  have hrender : (File.mk (usings.map (·.directive)) m).text =
      (GeneratedFile.mk (usings.map (·.text)) o.items).render := by
    apply String.toList_injective
    rw [File.text, String.toList_ofList, File.write, husings, htext, GeneratedFile.toList_render,
      GeneratedFile.lines, Layout.textAt_append, Piece.textOf_nil, List.append_nil]
  obtain ⟨file, hparse, hfile⟩ := (File.mk (usings.map (·.directive)) m).exists_parse_text
  refine ⟨file, hrender ▸ hparse, hfile.trans ?_⟩
  rw [File.tree, htree, List.map_map]
  congr 1
  exact List.map_congr_left fun n _ ↦ n.tree_directive

end Outline

end Syntax

end DoubleDispatch
