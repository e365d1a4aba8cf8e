import DoubleDispatch.Declaration
import Mathlib.Data.List.Forall2

/-!
# Declarations that match

Two declarations, members or files match if they differ in nothing but their spans and the names
that are kept as they are written: targets of using directives, names of attributes and texts of
base entries. `WrittenNames` says how far these may differ.
-/

namespace DoubleDispatch

/-- Which names that are kept as they are written may stand for each other. -/
structure WrittenNames where
  usingTarget : String → String → Prop
  attributeName : String → String → Prop
  baseText : String → String → Prop

namespace WrittenNames

/-- Names that are kept as they are written are the same. -/
def same : WrittenNames := ⟨Eq, Eq, Eq⟩

/-- Nothing is asked of names that are kept as they are written. -/
def free : WrittenNames := ⟨fun _ _ ↦ True, fun _ _ ↦ True, fun _ _ ↦ True⟩

/-- Names may stand for each other if others do not have to. -/
structure Implies (N N' : WrittenNames) : Prop where
  usingTarget : ∀ n n', N.usingTarget n n' → N'.usingTarget n n'
  attributeName : ∀ n n', N.attributeName n n' → N'.attributeName n n'
  baseText : ∀ n n', N.baseText n n' → N'.baseText n n'

end WrittenNames

section Headers

variable (N : WrittenNames)

/-- Directives that match. -/
structure UsingDirective.Matches (u u' : UsingDirective) : Prop where
  kind : u'.kind = u.kind
  target : N.usingTarget u.target u'.target
  isGlobal : u'.isGlobal = u.isGlobal

/-- Attributes that match. -/
def Attribute.Matches (a a' : Attribute) : Prop := N.attributeName a.name a'.name

/-- Sections that match. -/
structure AttributeSection.Matches (s s' : AttributeSection) : Prop where
  target : s'.target = s.target
  attributes : List.Forall₂ (Attribute.Matches N) s.attributes s'.attributes

/-- Base entries that match. -/
def BaseEntry.Matches (b b' : BaseEntry) : Prop := N.baseText b.text b'.text

/-- Type declarations that match. -/
structure TypeDeclaration.Matches (d d' : TypeDeclaration) : Prop where
  ordinal : d'.ordinal = d.ordinal
  kind : d'.kind = d.kind
  name : d'.name = d.name
  typeParameters : d'.typeParameters = d.typeParameters
  modifiers : d'.modifiers = d.modifiers
  sections : List.Forall₂ (AttributeSection.Matches N) d.sections d'.sections
  bases : List.Forall₂ (BaseEntry.Matches N) d.bases d'.bases

end Headers

mutual

/-- Members that match. -/
def Member.Matches (N : WrittenNames) : Member → Member → Prop
  | .type d, .type d' => d.Matches N d'
  | .scope name fileScoped usings members _, .scope name' fileScoped' usings' members' _ =>
    name' = name ∧ fileScoped' = fileScoped ∧
      List.Forall₂ (UsingDirective.Matches N) usings usings' ∧ membersMatch N members members'
  | _, _ => False

/-- Lists of members that match one by one. -/
def membersMatch (N : WrittenNames) : List Member → List Member → Prop
  | [], [] => True
  | m :: ms, m' :: ms' => m.Matches N m' ∧ membersMatch N ms ms'
  | _, _ => False

end

/-- Files that match. -/
structure SourceFile.Matches (N : WrittenNames) (file file' : SourceFile) : Prop where
  usings : List.Forall₂ (UsingDirective.Matches N) file.usings file'.usings
  members : membersMatch N file.members file'.members

variable {N N' : WrittenNames}

/-- Declarations that match have attributes that match, whichever sections they stand in. -/
theorem TypeDeclaration.Matches.attributes {d d' : TypeDeclaration} (h : d.Matches N d') :
    List.Forall₂ (Attribute.Matches N) d.attributes d'.attributes :=
  List.rel_flatMap h.sections fun _ _ hs ↦ hs.attributes

/-! ### Types of members that match -/

mutual

/-- The types of members that match do so one by one. -/
theorem Member.Matches.types {m m' : Member} (h : m.Matches N m') :
    List.Forall₂ (TypeDeclaration.Matches N) m.types m'.types :=
  match m, m', h with
  | .type _, .type _, h => .cons h .nil
  | .scope .., .scope .., ⟨_, _, _, hmembers⟩ => typesOf_of_membersMatch hmembers

/-- The types of lists of members that match do so one by one. -/
theorem typesOf_of_membersMatch {ms ms' : List Member} (h : membersMatch N ms ms') :
    List.Forall₂ (TypeDeclaration.Matches N) (typesOf ms) (typesOf ms') :=
  match ms, ms', h with
  | [], [], _ => .nil
  | _ :: _, _ :: _, ⟨hm, hms⟩ => List.rel_append hm.types (typesOf_of_membersMatch hms)

end

/-! ### Weaker and reflexive matching -/

namespace WrittenNames.Implies

theorem usingDirective (h : N.Implies N') {u u' : UsingDirective} (hu : u.Matches N u') :
    u.Matches N' u' :=
  ⟨hu.kind, h.usingTarget _ _ hu.target, hu.isGlobal⟩

theorem usings (h : N.Implies N') {us us' : List UsingDirective}
    (hus : List.Forall₂ (UsingDirective.Matches N) us us') :
    List.Forall₂ (UsingDirective.Matches N') us us' :=
  hus.imp fun _ _ ↦ h.usingDirective

theorem attributeSection (h : N.Implies N') {s s' : AttributeSection} (hs : s.Matches N s') :
    s.Matches N' s' :=
  ⟨hs.target, hs.attributes.imp fun _ _ ↦ h.attributeName _ _⟩

/-- Declarations match if less is asked of their names. -/
theorem declaration (h : N.Implies N') {d d' : TypeDeclaration} (hd : d.Matches N d') :
    d.Matches N' d' where
  ordinal := hd.ordinal
  kind := hd.kind
  name := hd.name
  typeParameters := hd.typeParameters
  modifiers := hd.modifiers
  sections := hd.sections.imp fun _ _ ↦ h.attributeSection
  bases := hd.bases.imp fun _ _ ↦ h.baseText _ _

mutual

theorem member (h : N.Implies N') {m m' : Member} (hm : m.Matches N m') : m.Matches N' m' :=
  match m, m', hm with
  | .type _, .type _, hd => h.declaration hd
  | .scope .., .scope .., ⟨hname, hscoped, husings, hmembers⟩ =>
    ⟨hname, hscoped, h.usings husings, h.members hmembers⟩

/-- Members match if less is asked of their names, by recursion over namespaces. -/
theorem members (h : N.Implies N') {ms ms' : List Member} (hms : membersMatch N ms ms') :
    membersMatch N' ms ms' :=
  match ms, ms', hms with
  | [], [], _ => trivial
  | _ :: _, _ :: _, ⟨hm, hms⟩ => ⟨h.member hm, h.members hms⟩

end

/-- **Files match** if less is asked of their names. -/
theorem file (h : N.Implies N') {file file' : SourceFile} (hfile : file.Matches N file') :
    file.Matches N' file' :=
  ⟨h.usings hfile.usings, h.members hfile.members⟩

end WrittenNames.Implies

/-- Every name may stand for itself. -/
structure WrittenNames.IsReflexive (N : WrittenNames) : Prop where
  usingTarget : ∀ n, N.usingTarget n n
  attributeName : ∀ n, N.attributeName n n
  baseText : ∀ n, N.baseText n n

namespace WrittenNames.IsReflexive

theorem usings (h : N.IsReflexive) (us : List UsingDirective) :
    List.Forall₂ (UsingDirective.Matches N) us us :=
  List.forall₂_same.2 fun u _ ↦ ⟨rfl, h.usingTarget u.target, rfl⟩

/-- A declaration matches itself. -/
theorem declaration (h : N.IsReflexive) (d : TypeDeclaration) : d.Matches N d where
  ordinal := rfl
  kind := rfl
  name := rfl
  typeParameters := rfl
  modifiers := rfl
  sections := List.forall₂_same.2 fun _ _ ↦
    ⟨rfl, List.forall₂_same.2 fun a _ ↦ h.attributeName a.name⟩
  bases := List.forall₂_same.2 fun b _ ↦ h.baseText b.text

mutual

theorem member (h : N.IsReflexive) : ∀ m : Member, m.Matches N m
  | .type d => h.declaration d
  | .scope _ _ usings members _ => ⟨rfl, rfl, h.usings usings, h.members members⟩

/-- Members match themselves, by recursion over namespaces. -/
theorem members (h : N.IsReflexive) : ∀ ms : List Member, membersMatch N ms ms
  | [] => trivial
  | m :: ms => ⟨h.member m, h.members ms⟩

end

/-- **A file matches itself.** -/
theorem file (h : N.IsReflexive) (file : SourceFile) : file.Matches N file :=
  ⟨h.usings file.usings, h.members file.members⟩

end WrittenNames.IsReflexive

/-! ### Deciding whether files match -/

section Decidable

variable (N : WrittenNames) [DecidableRel N.usingTarget] [DecidableRel N.attributeName]
  [DecidableRel N.baseText]

instance : DecidableRel (UsingDirective.Matches N) := fun u u' ↦
  decidable_of_iff (u'.kind = u.kind ∧ N.usingTarget u.target u'.target ∧
      u'.isGlobal = u.isGlobal)
    ⟨fun h ↦ ⟨h.1, h.2.1, h.2.2⟩, fun h ↦ ⟨h.kind, h.target, h.isGlobal⟩⟩

instance : DecidableRel (Attribute.Matches N) := fun a a' ↦
  inferInstanceAs (Decidable (N.attributeName a.name a'.name))

instance : DecidableRel (AttributeSection.Matches N) := fun s s' ↦
  decidable_of_iff (s'.target = s.target ∧
      List.Forall₂ (Attribute.Matches N) s.attributes s'.attributes)
    ⟨fun h ↦ ⟨h.1, h.2⟩, fun h ↦ ⟨h.target, h.attributes⟩⟩

instance : DecidableRel (BaseEntry.Matches N) := fun b b' ↦
  inferInstanceAs (Decidable (N.baseText b.text b'.text))

instance : DecidableRel (TypeDeclaration.Matches N) := fun d d' ↦
  decidable_of_iff (d'.ordinal = d.ordinal ∧ d'.kind = d.kind ∧ d'.name = d.name ∧
      d'.typeParameters = d.typeParameters ∧ d'.modifiers = d.modifiers ∧
      List.Forall₂ (AttributeSection.Matches N) d.sections d'.sections ∧
      List.Forall₂ (BaseEntry.Matches N) d.bases d'.bases)
    ⟨fun h ↦ ⟨h.1, h.2.1, h.2.2.1, h.2.2.2.1, h.2.2.2.2.1, h.2.2.2.2.2.1, h.2.2.2.2.2.2⟩,
      fun h ↦ ⟨h.ordinal, h.kind, h.name, h.typeParameters, h.modifiers, h.sections, h.bases⟩⟩

mutual

/-- Decides whether members match. -/
def Member.decideMatches : ∀ m m' : Member, Decidable (m.Matches N m')
  | .type d, .type d' => inferInstanceAs (Decidable (d.Matches N d'))
  | .scope name fileScoped usings members _, .scope name' fileScoped' usings' members' _ =>
    have := membersMatch.decide members members'
    inferInstanceAs (Decidable (name' = name ∧ fileScoped' = fileScoped ∧
      List.Forall₂ (UsingDirective.Matches N) usings usings' ∧ membersMatch N members members'))
  | .type _, .scope .. => isFalse id
  | .scope .., .type _ => isFalse id

/-- Decides whether lists of members match. -/
def membersMatch.decide : ∀ ms ms' : List Member, Decidable (membersMatch N ms ms')
  | [], [] => isTrue trivial
  | m :: ms, m' :: ms' =>
    have := Member.decideMatches m m'
    have := membersMatch.decide ms ms'
    inferInstanceAs (Decidable (m.Matches N m' ∧ membersMatch N ms ms'))
  | [], _ :: _ => isFalse id
  | _ :: _, [] => isFalse id

end

instance : DecidableRel (SourceFile.Matches N) := fun file file' ↦
  have := membersMatch.decide N file.members file'.members
  decidable_of_iff (List.Forall₂ (UsingDirective.Matches N) file.usings file'.usings ∧
      membersMatch N file.members file'.members)
    ⟨fun h ↦ ⟨h.1, h.2⟩, fun h ↦ ⟨h.usings, h.members⟩⟩

end Decidable

end DoubleDispatch
