import DoubleDispatch.Proofs.Declaration.Matching
import DoubleDispatch.Proofs.Lists

/-!
# The shape of a file

What is left of a file without its names, the texts that are kept as they are written, and its
spans: the nesting of directives, namespaces and types, with the kinds and modifiers of types, and
the numbers of type parameters, sections, attributes and base entries. Files that match have the
same shape.
-/

namespace DoubleDispatch

def UsingKind.shape : UsingKind → UsingKind
  | .alias _ => .alias ""
  | kind => kind

def UsingDirective.shape (u : UsingDirective) : UsingDirective :=
  ⟨u.kind.shape, "", u.isGlobal, ⟨0, 0⟩⟩

def AttributeSection.shape (s : AttributeSection) : AttributeSection :=
  ⟨s.target.map fun _ ↦ "", s.attributes.map fun _ ↦ ⟨"", ⟨0, 0⟩⟩, ⟨0, 0⟩⟩

/-- The declaration without its names, texts and spans. -/
def TypeDeclaration.shape (d : TypeDeclaration) : TypeDeclaration where
  ordinal := d.ordinal
  kind := d.kind
  name := ""
  typeParameters := d.typeParameters.map fun _ ↦ ""
  modifiers := d.modifiers
  sections := d.sections.map AttributeSection.shape
  bases := d.bases.map fun _ ↦ ⟨"", ⟨0, 0⟩⟩
  nameSpan := ⟨0, 0⟩
  span := ⟨0, 0⟩

mutual

/-- The member without names, texts and spans. -/
def Member.shape : Member → Member
  | .type d => .type d.shape
  | .scope _ fileScoped usings members _ =>
    .scope "" fileScoped (usings.map UsingDirective.shape) (shapes members) ⟨0, 0⟩

/-- The members without names, texts and spans. -/
def shapes : List Member → List Member
  | [] => []
  | m :: ms => m.shape :: shapes ms

end

/-- The file without names, texts and spans. -/
def SourceFile.shape (file : SourceFile) : SourceFile :=
  ⟨file.usings.map UsingDirective.shape, shapes file.members⟩

/-! ### Files that match -/

variable {N : WrittenNames}

/-- Directives that match have the same shape. -/
theorem shape_of_usingsMatch {us us' : List UsingDirective}
    (h : List.Forall₂ (UsingDirective.Matches N) us us') :
    us'.map UsingDirective.shape = us.map UsingDirective.shape :=
  map_eq_of_forall₂ h fun u u' hu ↦ by
    rw [UsingDirective.shape, UsingDirective.shape, hu.kind, hu.isGlobal]

/-- Declarations that match have the same shape. -/
theorem TypeDeclaration.Matches.shape {d d' : TypeDeclaration} (h : d.Matches N d') :
    d'.shape = d.shape := by
  have hsections : d'.sections.map AttributeSection.shape =
      d.sections.map AttributeSection.shape :=
    map_eq_of_forall₂ h.sections fun s s' hs ↦ by
      rw [AttributeSection.shape, AttributeSection.shape, hs.target,
        map_eq_of_forall₂ hs.attributes fun _ _ _ ↦ rfl]
  rw [TypeDeclaration.shape, TypeDeclaration.shape, h.ordinal, h.kind, h.typeParameters,
    h.modifiers, hsections, map_eq_of_forall₂ h.bases fun _ _ _ ↦ rfl]

mutual

theorem Member.Matches.shape {m m' : Member} (h : m.Matches N m') : m'.shape = m.shape :=
  match m, m', h with
  | .type _, .type _, hd => congrArg Member.type (TypeDeclaration.Matches.shape hd)
  | .scope .., .scope .., ⟨_, hscoped, husings, hmembers⟩ => by
    rw [Member.shape, Member.shape, hscoped, shape_of_usingsMatch husings,
      shapes_of_membersMatch hmembers]

/-- Members that match have the same shape, by recursion over namespaces. -/
theorem shapes_of_membersMatch {ms ms' : List Member} (h : membersMatch N ms ms') :
    shapes ms' = shapes ms :=
  match ms, ms', h with
  | [], [], _ => rfl
  | _ :: _, _ :: _, ⟨hm, hms⟩ => by
    rw [shapes, shapes, Member.Matches.shape hm, shapes_of_membersMatch hms]

end

end DoubleDispatch
