import DoubleDispatch.Proofs.Declaration.Shape
import DoubleDispatch.Proofs.Parsing.MemberBody

/-!
# Names of types

Where the name of a type stands, the parser takes any identifier, whatever word it is: `class` or
`where` written as `@class` or `@where`, or a word that has a meaning elsewhere. So another
identifier may stand there: the source is read with the same declarations, of which one has another
name (`SourceFile.exists_parse_of_renames`). Only behind `record` alone neither `struct` nor `class`
is a name, as both belong to the keyword.
-/

namespace DoubleDispatch

open Text (byteLength)

/-! ### Files in which a type has another name -/

section Renamed

variable (d : TypeDeclaration) (name : String)

/-- Members that match but for the type `d`, which has another name in the second ones. -/
inductive RenamesType : List Member → List Member → Prop
  | here {d' : TypeDeclaration} {ms ms' : List Member}
      (type : TypeDeclaration.Matches .same { d with name } d')
      (later : membersMatch .same ms ms') :
    RenamesType (.type d :: ms) (.type d' :: ms')
  | behind {m m' : Member} {ms ms' : List Member} (first : m.Matches .same m')
      (h : RenamesType ms ms') :
    RenamesType (m :: ms) (m' :: ms')
  | inNamespace {ns : String} {fileScoped : Bool} {span span' : Span}
      {us us' : List UsingDirective} {ms ms' others others' : List Member}
      (usings : List.Forall₂ (UsingDirective.Matches .same) us us') (h : RenamesType ms ms')
      (later : membersMatch .same others others') :
    RenamesType (.scope ns fileScoped us ms span :: others)
      (.scope ns fileScoped us' ms' span' :: others')

/-- Files that match but for the type `d`, which has another name in the second one. -/
structure SourceFile.Renames (file file' : SourceFile) : Prop where
  usings : List.Forall₂ (UsingDirective.Matches .same) file.usings file'.usings
  members : RenamesType d name file.members file'.members

/-- What stands around the type only has to match. -/
theorem SourceFile.isLocal_renames : IsLocal (Renames d name) where
  behindUsing first h := ⟨.cons first h.usings, h.members⟩
  behindMember first h := ⟨h.usings, .behind first h.members⟩
  inNamespace _ _ _ _ behind h := ⟨behind.usings, .inNamespace h.usings h.members behind.members⟩

variable {d name}

theorem RenamesType.shapes_eq {ms ms' : List Member} (h : RenamesType d name ms ms') :
    shapes ms' = shapes ms := by
  induction h with
  | here type later =>
    have htype : _ = d.shape := type.shape
    rw [shapes, shapes, Member.shape, Member.shape, htype, shapes_of_membersMatch later]
  | behind first _ ih => rw [shapes, shapes, first.shape, ih]
  | inNamespace usings _ later ih =>
    rw [shapes, shapes, Member.shape, Member.shape, shape_of_usingsMatch usings, ih,
      shapes_of_membersMatch later]

/-- A file in which a type has another name has the same shape. -/
theorem SourceFile.Renames.shape_eq {file file' : SourceFile} (h : file.Renames d name file') :
    file'.shape = file.shape := by
  rw [shape, shape, shape_of_usingsMatch h.usings, h.members.shapes_eq]

end Renamed

/-! ### The name of a type in a source -/

/-- Where a header starts, no directive does. -/
theorem Stream.using?_eq_none_of_headerStart? {source : List Char} {s : Stream}
    {header : Parsed HeaderStart} (h : s.headerStart? source = some header) :
    s.using? source = none := by
  rcases kind_of_headerStart? h with hbracket | ⟨word, hkind, hword⟩
  · exact using?_eq_none (.inl hbracket)
  · have hwords : ∀ word ∈ modifierWords ++ ["class", "struct", "interface", "enum", "record"],
        word ≠ "using" ∧ word ≠ "global" := by
      decide
    exact using?_eq_none (.inr ⟨word, hkind, hwords word hword⟩)

/-- A declaration stands in the file or in a namespace behind some tokens, and its name is the first
one of others. -/
def IsNamed (source : List Char) (tokens : List Token) (d : TypeDeclaration)
    (front ahead : List Token) : Prop :=
  ∃ braced ordinal s body header, Stream.Reaches source braced ordinal s false 0 ⟨tokens, 0⟩ ∧
    Stream.Declares source braced ordinal s d body ∧ tokens = front ++ s.ahead ∧
    s.headerStart? source = some header ∧ header.rest.ahead = ahead

/-- **Every declaration of a file that is read is named** by an identifier of the source. -/
theorem SourceFile.exists_isNamed {source : String} {file : SourceFile}
    (h : SourceFile.parse source = .ok file) :
    ∃ tokens, tokenize source = .ok tokens ∧ ∀ d ∈ file.types, ∃ front behind,
      IsNamed source.toList tokens d front (⟨.identifier d.name, d.nameSpan⟩ :: behind) := by
  obtain ⟨tokens, b, htokens, -, hreads, rfl⟩ := exists_reads_of_parse h
  refine ⟨tokens, htokens, fun d hd ↦ ?_⟩
  obtain ⟨braced, ordinal, s, body, rest, -, hreaches, hdeclares⟩ := hreads.exists_declares d hd
  obtain ⟨last, hfound⟩ := hdeclares.found
  obtain ⟨header, hheader, hdeclarator⟩ := Stream.exists_headerStart?_of_typeDeclaration? hfound
  obtain ⟨strays, front, hahead, -⟩ := hreaches.exists_passes
  obtain ⟨name, _, _, _, _, _, hname, -, -, -, -, -, heq⟩ :=
    Stream.declarator_eq_ok_iff.1 hdeclarator
  obtain ⟨⟨kind, span⟩, htoken, hkind, hspan⟩ :=
    Stream.exists_ahead_eq (Stream.kind_ne_endOfFile_of_name? hname)
  obtain rfl : kind = .identifier name := hkind.trans (Stream.eq_identifier_of_name? hname)
  obtain rfl : span = header.rest.span := hspan
  obtain ⟨rfl, -⟩ := Parsed.mk.inj heq
  exact ⟨front, _, braced, ordinal, s, _, header, hreaches, hdeclares, hahead, hheader, htoken⟩

/-! ### An identifier in place of another -/

namespace Replacement

variable (R : Replacement)

/-- The identifier that is replaced. -/
def oldName (name : String) : Token :=
  ⟨.identifier name, ⟨byteLength R.before, byteLength R.before + byteLength R.removed⟩⟩

/-- The identifier that stands in its place. -/
def newName (name : String) : Token :=
  ⟨.identifier name, ⟨byteLength R.before, byteLength R.before + byteLength R.inserted⟩⟩

/-- An identifier is replaced by another one: the tokens before it are the same, and those behind it
are moved. -/
structure ReplacesName (name name' : String) (front back back' : List Token) : Prop where
  source : tokenize (String.ofList R.source) = .ok (front ++ R.oldName name :: back)
  changed : tokenize (String.ofList R.changed) = .ok (front ++ R.newName name' :: back')
  back : List.Forall₂ R.back.Meets back back'

variable {R} {name name' : String} {front back back' : List Token}

namespace ReplacesName

/-- The tokens before the identifier end before it starts. -/
theorem stop_le (h : R.ReplacesName name name' front back back') :
    ∀ t ∈ front, t.span.start ≤ t.span.stop ∧ t.span.stop ≤ byteLength R.before := by
  have htokens := tokensFrom_of_tokenize h.source
  intro t ht
  exact ⟨htokens.start_le_stop t (List.mem_append_left _ ht),
    ((List.pairwise_append.1 htokens.pairwise).2.2 t ht _ List.mem_cons_self).1⟩

/-- Tokens before the identifier are the same. -/
theorem beside_front (h : R.ReplacesName name name' front back back') {taken : List Token}
    (htaken : taken ⊆ front) (leftTail rightTail : List Token) (prevEnd prevEnd' : Nat) :
    (R.front leftTail rightTail).Beside ⟨taken ++ leftTail, prevEnd⟩
      ⟨taken ++ rightTail, prevEnd'⟩ := by
  refine ⟨taken, taken, rfl, rfl, List.forall₂_same.2 fun t ht ↦ ?_⟩
  obtain ⟨hle, hstop⟩ := h.stop_le t (htaken ht)
  exact ⟨rfl, ⟨rfl, Nat.le_trans hle hstop⟩, rfl, hstop⟩

/-- Behind the identifiers, both sources have the same tokens. -/
theorem level_back (h : R.ReplacesName name name' front back back') {s s' : Stream}
    (hs : s.ahead = R.oldName name :: back) (hs' : s'.ahead = R.newName name' :: back') :
    R.back.Level s.advance s'.advance := by
  obtain ⟨_, prevEnd⟩ := s
  obtain ⟨_, prevEnd'⟩ := s'
  obtain rfl := hs
  obtain rfl := hs'
  exact ⟨⟨back, back', (List.append_nil _).symm, (List.append_nil _).symm, h.back⟩, 0, rfl, rfl⟩

section Declaration

variable {braced : Bool} {ordinal : Nat} {s s' : Stream} {d : TypeDeclaration} {body : List Token}
  {header : Parsed Stream.HeaderStart}

/-- Headers that are alike up to the name and behind it declare types that match but for the
name. -/
theorem matches_declaration {head : Stream.Head} {start' : Stream.HeaderStart}
    {bases' : List BaseEntry} {leftTail rightTail : List Token}
    (hstart : (R.front leftTail rightTail).StartsAlike head.start start')
    (hbases : List.Forall₂ (BaseEntry.Like R.back.likeness) head.bases bases') (ordinal : Nat)
    (nameSpan span span' : Span) :
    TypeDeclaration.Matches .same { head.declaration ordinal span with name := name' }
      (Stream.Head.declaration ⟨start', name', head.typeParameters, bases', nameSpan⟩ ordinal
        span') where
  ordinal := rfl
  kind := hstart.kind
  name := rfl
  typeParameters := rfl
  modifiers := hstart.modifiers
  sections := hstart.sections.imp fun _ _ hs ↦
    (Replacement.implies_same _ trivial).attributeSection hs.matches
  bases := hbases.imp fun _ _ hb ↦ (Replacement.implies_same _ trivial).baseText _ _ hb.text

/-- **A type declaration is read alike with another name.** -/
theorem exists_typeDeclaration? (h : R.ReplacesName name name' front back back')
    (hbeside : (R.front (R.oldName name :: back) (R.newName name' :: back')).Beside s s')
    {last : Stream} (found : s.typeDeclaration? R.source ordinal = .ok (some ⟨d, last⟩))
    (hheader : s.headerStart? R.source = some header)
    (hname : header.rest.ahead = R.oldName name :: back)
    (hrecord : d.kind = .recordType → name' ≠ "struct" ∧ name' ≠ "class") :
    ∃ header' d' last', s'.headerStart? R.changed = some header' ∧
      s'.typeDeclaration? R.changed ordinal = .ok (some ⟨d', last'⟩) ∧
      TypeDeclaration.Matches .same { d with name := name' } d' ∧ R.back.Level last last' := by
  obtain ⟨_, hheader₂, hdeclarator⟩ := Stream.exists_headerStart?_of_typeDeclaration? found
  obtain rfl := Option.some.inj (hheader.symm.trans hheader₂)
  rw [Stream.declarator_eq] at hdeclarator
  obtain ⟨head, hhead, hdeclarator⟩ := exists_of_bind_eq_ok hdeclarator
  obtain ⟨next, hnext, hdeclarator⟩ := exists_of_bind_eq_ok hdeclarator
  obtain ⟨rfl, rfl⟩ := Parsed.mk.inj (Except.ok.inj hdeclarator)
  have hheadStart := Stream.start_of_head hhead
  -- The header is read up to the name on the other side, and behind the name to the end.
  rw [Stream.Head.declaration, hheadStart] at hrecord
  obtain ⟨header', hheader', hstart, hbeside'⟩ :=
    hbeside.headerStart?_of_name rfl hheader hname hrecord
  have hname' : header'.rest.ahead = R.newName name' :: back' := hbeside'.ahead_eq hname
  obtain ⟨head', hhead', ⟨bases', hvalue, hbases⟩, hmark⟩ :=
    ((h.level_back hname hname').head_of_name hhead (by rw [Stream.kind, hname']; rfl)
      header'.value (back_guarded _).before).exists_eq_ok trivial
  obtain ⟨next', hnext', hlevel⟩ :=
    hmark.typeBody hnext (back_guarded _).before.clears head'.value.name
  refine ⟨header', head'.value.declaration ordinal ⟨s'.start, next'.prevEnd⟩, next', hheader', ?_,
    ?_, hlevel⟩
  · rw [Stream.typeDeclaration?, hheader']
    dsimp only
    rw [Stream.declarator_eq, hhead', Stream.ok_bind, hnext']
    rfl
  · rw [← hheadStart] at hstart
    rw [hvalue]
    exact matches_declaration hstart hbases _ _ _ _

/-- **A type is read alike with another name**, and so is what stands behind it. -/
theorem exists_agree (h : R.ReplacesName name name' front back back')
    (hbeside : (R.front (R.oldName name :: back) (R.newName name' :: back')).Beside s s')
    (hd : Stream.Declares R.source braced ordinal s d body)
    (hheader : s.headerStart? R.source = some header)
    (hname : header.rest.ahead = R.oldName name :: back)
    (hrecord : d.kind = .recordType → name' ≠ "struct" ∧ name' ≠ "class") {b : Stream.Body}
    (hb : Stream.bodyOf R.source braced ordinal s = .ok b) :
    ∃ b', Stream.bodyOf R.changed braced ordinal s' = .ok b' ∧
      R.Agree (SourceFile.Renames d name') b b' := by
  obtain ⟨goesOn, noUsing, noNamespace, ⟨last, found⟩, -⟩ := hd
  obtain ⟨header', d', last', hheader', found', hmatches, hlevel⟩ :=
    h.exists_typeDeclaration? hbeside found hheader hname hrecord
  -- What stands behind the declaration is read in both sources.
  rw [goesOn.bodyOf_type noUsing noNamespace, Stream.bodyFromType, found] at hb
  dsimp only at hb
  obtain ⟨later, hlater, hb⟩ := exists_of_bind_eq_ok hb
  cases hb
  obtain ⟨later', hlater', hlaters⟩ :=
    Replacement.exists_agree hlevel.beside (Stream.bodyOf_eq_ok_iff.1 hlater)
  have hs : (R.front (R.oldName name :: back) (R.newName name' :: back')).Before s := by
    obtain ⟨taken, hahead, -⟩ := Stream.passes_headerStart? hheader
    refine Pairing.UpTo.before_append ⟨[], hname.symm⟩ (?_ : taken ≠ []) hahead
    rintro rfl
    exact Stream.ahead_ne_of_size_lt (Stream.size_headerStart?_lt hheader) hahead.symm
  have noNamespace' : s'.kind.isWord "namespace" = false := by rwa [hbeside.kind_eq hs]
  have hread : Stream.bodyOf R.changed braced ordinal s' =
      .ok { later' with members := .type d' :: later'.members } := by
    rw [(hbeside.goesOn hs goesOn).bodyOf_type (Stream.using?_eq_none_of_headerStart? hheader')
      noNamespace', Stream.bodyFromType, found']
    exact congrArg (· >>= _) hlater'
  exact ⟨_, hread, ⟨hlaters.file.usings, .here hmatches hlaters.file.members⟩, hlaters.ordinal,
    hlaters.rest⟩

end Declaration

end ReplacesName

end Replacement

/-- **A type may have any name**: with another identifier in place of its name, a source that is
read still is, with the same declarations but for this name. -/
theorem SourceFile.exists_parse_of_renames {R : Replacement} {name name' : String}
    {front back back' before : List Token} (h : R.ReplacesName name name' front back back')
    {file : SourceFile} (hfile : SourceFile.parse (String.ofList R.source) = .ok file)
    {d : TypeDeclaration}
    (hd : IsNamed R.source (front ++ R.oldName name :: back) d before (R.oldName name :: back))
    (hends : before = [] ∨ EndsItem before)
    (hrecord : d.kind = .recordType → name' ≠ "struct" ∧ name' ≠ "class") :
    ∃ file', SourceFile.parse (String.ofList R.changed) = .ok file' ∧
      file.Renames d name' file' := by
  obtain ⟨braced, ordinal, s, body, header, hreaches, hdeclares, htokens, hheader, hname⟩ := hd
  rw [parse_of_tokenize h.source, String.toList_ofList] at hfile
  obtain ⟨b, hb, rfl⟩ := Lexer.eq_ok_of_map_eq_ok hfile
  rw [parse_of_tokenize h.changed, String.toList_ofList]
  -- The tokens up to the name are those before the declaration and those of its header.
  obtain ⟨start, hstart, -⟩ := Stream.passes_headerStart? hheader
  rw [hname] at hstart
  obtain rfl : front = before ++ start := by
    refine (List.append_left_inj (R.oldName name :: back)).1 ?_
    rw [htokens, hstart, List.append_assoc]
  rw [List.append_assoc] at hreaches htokens hb ⊢
  let leftTail := start ++ R.oldName name :: back
  let rightTail := start ++ R.newName name' :: back'
  have hclear : (R.front leftTail rightTail).IsClear := by
    have hkind : s.kind ≠ .semicolon := by
      rcases Stream.kind_of_headerStart? hheader with hbracket | ⟨word, hword, -⟩
      · rw [hbracket]
        decide
      · rw [hword]
        exact TokenKind.noConfusion
    cases start with
    | nil => exact TokenKind.noConfusion
    | cons t start => rwa [Stream.kind, hstart] at hkind
  obtain ⟨s', b₀, hbeside, hb₀, hdecides⟩ := Replacement.isDecided_of_reaches (R := R)
    (isLocal_renames d name') hreaches (.of_meetsTail hclear ⟨hstart, before, htokens, hends⟩) _ b
    (h.beside_front (List.subset_append_left _ _) leftTail rightTail 0 0) hb
  -- At the declaration, the tokens of its header are the same.
  obtain ⟨ahead, prevEnd⟩ := s
  obtain ⟨ahead', prevEnd'⟩ := s'
  obtain rfl : ahead = leftTail := hstart
  obtain rfl : ahead' = rightTail := hbeside.ahead_eq rfl
  obtain ⟨b₀', hb₀', hagree₀⟩ := h.exists_agree
    (h.beside_front (List.subset_append_right _ _) _ _ prevEnd prevEnd') hdeclares hheader hname
    hrecord hb₀
  obtain ⟨b', hb', hagree⟩ := hdecides.agrees b₀' hb₀' hagree₀
  exact ⟨⟨b'.usings, b'.members⟩, congrArg (Functor.map _) hb', hagree.file⟩

end DoubleDispatch
