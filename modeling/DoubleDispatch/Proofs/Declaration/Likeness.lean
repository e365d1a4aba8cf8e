import DoubleDispatch.Proofs.Declaration.Matching

/-!
# Declarations that are alike

Declarations, members and files that match and whose spans, part by part, may stand for each other.
Where everything may only stand for itself, they are the same.
-/

namespace DoubleDispatch

/-- Which names that are kept as they are written, and which spans, may stand for each other. -/
structure Likeness extends WrittenNames where
  span : Span → Span → Prop

/-- Everything stands for itself only. -/
structure Likeness.IsIdentity (L : Likeness) : Prop where
  usingTarget : ∀ n n', L.usingTarget n n' → n' = n
  attributeName : ∀ n n', L.attributeName n n' → n' = n
  baseText : ∀ n n', L.baseText n n' → n' = n
  span : ∀ sp sp', L.span sp sp' → sp' = sp

section Headers

variable (L : Likeness)

/-- Directives that are alike. -/
structure UsingDirective.Like (u u' : UsingDirective) : Prop
    extends UsingDirective.Matches L.toWrittenNames u u' where
  span : L.span u.span u'.span

/-- Attributes that are alike. -/
structure Attribute.Like (a a' : Attribute) : Prop where
  name : L.attributeName a.name a'.name
  span : L.span a.span a'.span

/-- Sections that are alike. -/
structure AttributeSection.Like (s s' : AttributeSection) : Prop where
  target : s'.target = s.target
  attributes : List.Forall₂ (Attribute.Like L) s.attributes s'.attributes
  span : L.span s.span s'.span

/-- Base entries that are alike. -/
structure BaseEntry.Like (b b' : BaseEntry) : Prop where
  text : L.baseText b.text b'.text
  span : L.span b.span b'.span

/-- Type declarations that are alike. -/
structure TypeDeclaration.Like (d d' : TypeDeclaration) : Prop where
  ordinal : d'.ordinal = d.ordinal
  kind : d'.kind = d.kind
  name : d'.name = d.name
  typeParameters : d'.typeParameters = d.typeParameters
  modifiers : d'.modifiers = d.modifiers
  sections : List.Forall₂ (AttributeSection.Like L) d.sections d'.sections
  bases : List.Forall₂ (BaseEntry.Like L) d.bases d'.bases
  nameSpan : L.span d.nameSpan d'.nameSpan
  span : L.span d.span d'.span

end Headers

mutual

/-- Members that are alike. -/
def Member.Like (L : Likeness) : Member → Member → Prop
  | .type d, .type d' => d.Like L d'
  | .scope name fileScoped usings members span, .scope name' fileScoped' usings' members' span' =>
    name' = name ∧ fileScoped' = fileScoped ∧ L.span span span' ∧
      List.Forall₂ (UsingDirective.Like L) usings usings' ∧ membersLike L members members'
  | _, _ => False

/-- Lists of members that are alike one by one. -/
def membersLike (L : Likeness) : List Member → List Member → Prop
  | [], [] => True
  | m :: ms, m' :: ms' => m.Like L m' ∧ membersLike L ms ms'
  | _, _ => False

end

variable {L : Likeness}

/-! ### What is alike matches -/

theorem matches_of_usingsLike {us us' : List UsingDirective}
    (h : List.Forall₂ (UsingDirective.Like L) us us') :
    List.Forall₂ (UsingDirective.Matches L.toWrittenNames) us us' :=
  h.imp fun _ _ hu ↦ hu.toMatches

/-- Sections that are alike match. -/
theorem AttributeSection.Like.matches {s s' : AttributeSection} (h : s.Like L s') :
    s.Matches L.toWrittenNames s' :=
  ⟨h.target, h.attributes.imp fun _ _ ha ↦ ha.name⟩

/-- Declarations that are alike match: they differ in spans only. -/
theorem TypeDeclaration.Like.matches {d d' : TypeDeclaration} (h : d.Like L d') :
    d.Matches L.toWrittenNames d' where
  ordinal := h.ordinal
  kind := h.kind
  name := h.name
  typeParameters := h.typeParameters
  modifiers := h.modifiers
  sections := h.sections.imp fun _ _ hs ↦ hs.matches
  bases := h.bases.imp fun _ _ hb ↦ hb.text

mutual

/-- Members that are alike match. -/
theorem Member.Like.matches {m m' : Member} (h : m.Like L m') : m.Matches L.toWrittenNames m' :=
  match m, m', h with
  | .type _, .type _, hd => TypeDeclaration.Like.matches hd
  | .scope .., .scope .., ⟨hname, hscoped, _, husings, hmembers⟩ =>
    ⟨hname, hscoped, matches_of_usingsLike husings, matches_of_membersLike hmembers⟩

/-- Lists of members that are alike match, by recursion over namespaces. -/
theorem matches_of_membersLike {ms ms' : List Member} (h : membersLike L ms ms') :
    membersMatch L.toWrittenNames ms ms' :=
  match ms, ms', h with
  | [], [], _ => trivial
  | _ :: _, _ :: _, ⟨hm, hms⟩ => ⟨Member.Like.matches hm, matches_of_membersLike hms⟩

end

/-! ### What is alike is the same -/

namespace Likeness.IsIdentity

/-- Lists are equal if a relation that holds of equal things only relates them one by one. -/
theorem eq_of_forall₂ {α : Type} {R : α → α → Prop} (hR : ∀ a a', R a a' → a' = a)
    {l l' : List α} (h : List.Forall₂ R l l') : l' = l := by
  induction h with
  | nil => rfl
  | cons hfirst _ ih => rw [hR _ _ hfirst, ih]

/-- Directives that are alike up to the identity are equal. -/
theorem usingDirective_eq (hL : L.IsIdentity) {u u' : UsingDirective} (h : u.Like L u') :
    u' = u := by
  obtain ⟨kind, target, isGlobal, span⟩ := u
  obtain ⟨kind', target', isGlobal', span'⟩ := u'
  obtain rfl : kind' = kind := h.kind
  obtain rfl : target' = target := hL.usingTarget _ _ h.target
  obtain rfl : isGlobal' = isGlobal := h.isGlobal
  obtain rfl : span' = span := hL.span _ _ h.span
  rfl

theorem attribute_eq (hL : L.IsIdentity) {a a' : Attribute} (h : a.Like L a') : a' = a := by
  obtain ⟨name, span⟩ := a
  obtain ⟨name', span'⟩ := a'
  obtain rfl : name' = name := hL.attributeName _ _ h.name
  obtain rfl : span' = span := hL.span _ _ h.span
  rfl

/-- Sections that are alike up to the identity are equal. -/
theorem section_eq (hL : L.IsIdentity) {s s' : AttributeSection} (h : s.Like L s') : s' = s := by
  obtain ⟨target, attributes, span⟩ := s
  obtain ⟨target', attributes', span'⟩ := s'
  obtain rfl : target' = target := h.target
  obtain rfl : attributes' = attributes := eq_of_forall₂ (fun _ _ ↦ hL.attribute_eq) h.attributes
  obtain rfl : span' = span := hL.span _ _ h.span
  rfl

theorem baseEntry_eq (hL : L.IsIdentity) {b b' : BaseEntry} (h : b.Like L b') : b' = b := by
  obtain ⟨text, span⟩ := b
  obtain ⟨text', span'⟩ := b'
  obtain rfl : text' = text := hL.baseText _ _ h.text
  obtain rfl : span' = span := hL.span _ _ h.span
  rfl

/-- Declarations that are alike up to the identity are equal. -/
theorem declaration_eq (hL : L.IsIdentity) {d d' : TypeDeclaration} (h : d.Like L d') : d' = d := by
  obtain ⟨ordinal, kind, name, typeParameters, modifiers, sections, bases, nameSpan, span⟩ := d
  obtain ⟨ordinal', kind', name', typeParameters', modifiers', sections', bases', nameSpan',
    span'⟩ := d'
  obtain rfl : ordinal' = ordinal := h.ordinal
  obtain rfl : kind' = kind := h.kind
  obtain rfl : name' = name := h.name
  obtain rfl : typeParameters' = typeParameters := h.typeParameters
  obtain rfl : modifiers' = modifiers := h.modifiers
  obtain rfl : sections' = sections := eq_of_forall₂ (fun _ _ ↦ hL.section_eq) h.sections
  obtain rfl : bases' = bases := eq_of_forall₂ (fun _ _ ↦ hL.baseEntry_eq) h.bases
  obtain rfl : nameSpan' = nameSpan := hL.span _ _ h.nameSpan
  obtain rfl : span' = span := hL.span _ _ h.span
  rfl

theorem usings_eq (hL : L.IsIdentity) {us us' : List UsingDirective}
    (h : List.Forall₂ (UsingDirective.Like L) us us') : us' = us :=
  eq_of_forall₂ (fun _ _ ↦ hL.usingDirective_eq) h

mutual

/-- **Members that are alike up to the identity are equal.** -/
theorem member_eq (hL : L.IsIdentity) {m m' : Member} (h : m.Like L m') : m' = m :=
  match m, m', h with
  | .type _, .type _, hd => congrArg Member.type (hL.declaration_eq hd)
  | .scope .., .scope .., ⟨hname, hscoped, hspan, husings, hmembers⟩ => by
    rw [hname, hscoped, hL.span _ _ hspan, hL.usings_eq husings, members_eq hL hmembers]

/-- Lists of members that are alike up to the identity are equal, by recursion over namespaces. -/
theorem members_eq (hL : L.IsIdentity) {ms ms' : List Member} (h : membersLike L ms ms') :
    ms' = ms :=
  match ms, ms', h with
  | [], [], _ => rfl
  | _ :: _, _ :: _, ⟨hm, hms⟩ => by rw [member_eq hL hm, members_eq hL hms]

end

end Likeness.IsIdentity

end DoubleDispatch
