import DoubleDispatch.Proofs.Parsing.BaseList
import DoubleDispatch.Proofs.Printing.Names

/-!
# Printed headers are read back

What a parser gives at the parts of a type declaration that were printed: sections of attributes,
modifiers, keyword, type parameters, base entries and body. Each of them reads its own pieces and
stops before those behind it.
-/

namespace DoubleDispatch

open Text (byteLength)
open Piece (textOf tokensAt kindOf)

/-- The word is not one with a meaning of its own. -/
theorem Syntax.Name.ne {name : Syntax.Name} {word : String}
    (h : word ∈ Syntax.reservedWords := by decide) : name.name ≠ word := by
  rintro rfl
  exact name.notReserved h

namespace Stream

variable {source : List Char} {rest : List Piece} {s : Stream}

/-! ### Attributes -/

/-- What stands behind an attribute. -/
def EndsAttribute (kind : TokenKind) : Prop := kind = .comma ∨ kind = .closeBracket

/-- What stands behind the name of an attribute. -/
theorem EndsAttribute.kindOf_writeArguments (hends : EndsAttribute (kindOf rest))
    (arguments : Option (Group .paren)) :
    kindOf (Syntax.Attribute.writeArguments arguments rest) = .openParen ∨
      EndsAttribute (kindOf (Syntax.Attribute.writeArguments arguments rest)) := by
  cases arguments with
  | none => exact .inr hends
  | some g => exact .inl rfl

/-- The arguments of an attribute are read over. -/
theorem Before.skipArguments? {arguments : Option (Group .paren)}
    (hends : EndsAttribute (kindOf rest))
    (h : Before source (Syntax.Attribute.writeArguments arguments rest) s) :
    ∃ next, s.skipArguments? = some next ∧ Before source rest next := by
  cases arguments with
  | none =>
    refine ⟨s, skipArguments?_eq_some_iff.2 (.inr ⟨?_, rfl⟩), h⟩
    rw [h.kind_eq]
    rintro hk
    rw [Syntax.Attribute.writeArguments] at hk
    rw [hk] at hends
    rcases hends with hends | hends <;> cases hends
  | some g =>
    obtain ⟨next, hskip, hnext⟩ := h.group
    have hkind : s.kind = .openParen := h.kind_eq
    exact ⟨next, skipArguments?_eq_some_iff.2 (.inl ⟨hkind, hskip⟩), hnext⟩

/-- An attribute is read back. -/
theorem Before.attribute? {a : Syntax.Attribute} (hends : EndsAttribute (kindOf rest))
    (h : Before source (a.write rest) s) :
    ∃ read, s.attribute? source = some read ∧ read.value.withoutSpan = a.tree ∧
      Before source rest read.rest := by
  have hname : EndsName (kindOf (Syntax.Attribute.writeArguments a.arguments rest)) := by
    rcases hends.kindOf_writeArguments a.arguments with hkind | hkind | hkind <;>
      (rw [hkind]; rfl)
  obtain ⟨behind, hread, hbehind⟩ := Before.typeName? hname h
  obtain ⟨next, hskip, hnext⟩ := hbehind.skipArguments? hends
  exact ⟨_, attribute?_eq_some_iff.2 ⟨_, next, hread, hskip, rfl⟩, rfl, hnext⟩

/-- Attributes are read back, by induction on them. -/
theorem Before.attributes? {first : Syntax.Attribute} {later : List Syntax.Attribute}
    (h : Before source
      (first.write (Syntax.Attribute.writeLater later (.mark .closeBracket :: rest))) s) :
    ∃ read, Stream.attributes? source s = some read ∧
      read.value.map Attribute.withoutSpan = (first :: later).map Syntax.Attribute.tree ∧
      Before source (.mark .closeBracket :: rest) read.rest := by
  have hkind : s.kind ≠ .closeBracket := by
    rw [(Before.head h).1]
    nofun
  induction later generalizing first s with
  | nil =>
    obtain ⟨read, hread, hvalue, hnext⟩ := Before.attribute? (.inr rfl) h
    have hcomma : read.rest.kind ≠ .comma := by
      rw [hnext.kind_eq]
      nofun
    exact ⟨_, attributes?_singleton hkind hread hcomma, congrArg (fun a ↦ [a]) hvalue, hnext⟩
  | cons second later ih =>
    obtain ⟨read, hread, hvalue, hnext⟩ := Before.attribute? (.inl rfl) h
    have hbehind := hnext.mark.blank
    have hkind' : read.rest.advance.kind ≠ .closeBracket := by
      rw [(Before.head hbehind).1]
      nofun
    obtain ⟨reads, hreads, hvalues, hlast⟩ := ih hbehind hkind'
    refine ⟨_, attributes?_cons hkind hread hnext.kind_eq hreads, ?_, hlast⟩
    rw [List.map_cons, hvalue, hvalues]
    rfl

/-! ### Sections -/

/-- The target of a section is read back. -/
theorem Before.target {target : Option Syntax.SectionTarget} {first : Syntax.Attribute}
    (hends : EndsAttribute (kindOf rest))
    (h : Before source (Syntax.Section.writeTarget target (first.write rest)) s) :
    s.target.value = target.map (·.name) ∧ Before source (first.write rest) s.target.rest := by
  cases target with
  | none =>
    obtain ⟨hkind, hsecond⟩ := Before.head h
    have hcolon : s.secondKind ≠ .colon := by
      rcases hsecond with hsecond | hsecond | hsecond | hsecond | hsecond
      · rw [hsecond]
        rcases hends.kindOf_writeArguments first.arguments with hkind | hkind | hkind <;>
          (rw [hkind]; nofun)
      all_goals (rw [hsecond]; nofun)
    have htarget : s.target = ⟨none, s⟩ := by
      rw [Stream.target, hkind]
      split
      next hcolon' => exact absurd hcolon' hcolon
      next => rfl
    rw [htarget]
    exact ⟨rfl, h⟩
  | some target =>
    have htarget : s.target = ⟨some target.name, s.advance.advance⟩ := by
      rw [Stream.target, h.kind_eq, h.secondKind_eq]
      rfl
    rw [htarget]
    exact ⟨rfl, h.word.mark.blank⟩

theorem isOwnTarget_map (target : Option Syntax.SectionTarget) :
    isOwnTarget (target.map (·.name)) = true := by
  cases target with
  | none => rfl
  | some target =>
    rw [Option.map_some, isOwnTarget]
    · exact fun h ↦ target.isOwn.1 (Option.some.inj h)
    · exact fun h ↦ target.isOwn.2 (Option.some.inj h)

theorem EndsAttribute.writeLater (later : List Syntax.Attribute) :
    EndsAttribute (kindOf (Syntax.Attribute.writeLater later (.mark .closeBracket :: rest))) := by
  cases later with
  | nil => exact .inr rfl
  | cons a later => exact .inl rfl

/-- **A section is read back.** -/
theorem Before.section? {ss : Syntax.Section} (h : Before source (ss.write rest) s) :
    ∃ read, s.section? source = some read ∧ read.value.withoutSpans = ss.tree ∧
      Before source rest read.rest := by
  obtain ⟨htarget, hattributes⟩ := h.mark.target (EndsAttribute.writeLater ss.later)
  obtain ⟨read, hread, hvalue, hlast⟩ := hattributes.attributes?
  have hnonempty : read.value.isEmpty = false := by
    cases hempty : read.value with
    | nil =>
      rw [hempty] at hvalue
      cases hvalue
    | cons => rfl
  have hown : isOwnTarget s.advance.target.value = true := by
    rw [htarget]
    exact isOwnTarget_map _
  refine ⟨_, section?_eq_some_iff.2 ⟨read, hown, hread, hnonempty, hlast.kind_eq, rfl⟩, ?_,
    hlast.mark⟩
  rw [AttributeSection.withoutSpans, htarget, hvalue]
  rfl

/-- Sections are read back, by induction on them. -/
theorem Before.sections? {ss : List Syntax.Section} {depth : Nat}
    (hrest : kindOf rest ≠ .openBracket)
    (h : Before source (Syntax.Section.writeLines depth ss rest) s) :
    ∃ read, Stream.sections? source s = some read ∧
      read.value.map AttributeSection.withoutSpans = ss.map Syntax.Section.tree ∧
      Before source rest read.rest := by
  induction ss generalizing s with
  | nil =>
    refine ⟨⟨[], s⟩, ?_, rfl, h⟩
    rw [Stream.sections?, dif_neg]
    rw [h.kind_eq]
    exact hrest
  | cons first ss ih =>
    obtain ⟨read, hread, hvalue, hnext⟩ := Before.section? h
    obtain ⟨reads, hreads, hvalues, hlast⟩ := ih hnext.blank.blank
    refine ⟨_, sections?_cons h.kind_eq hread hreads, ?_, hlast⟩
    rw [List.map_cons, hvalue, hvalues]
    rfl

/-! ### Modifiers and keyword -/

/-- Modifiers are read back before a word that is none. -/
theorem Before.readModifiers {ms : List Syntax.Modifier} {word : String}
    (hrest : kindOf rest = .identifier word) (hmem : word ∉ modifierWords)
    (h : Before source (Syntax.writeModifiers ms rest) s) :
    ∃ next, Stream.readModifiers s.prevEnd s.ahead = ⟨ms.map (·.name), next⟩ ∧
      Before source rest next := by
  induction ms generalizing s with
  | nil => exact ⟨s, readModifiers_nil (h.kind_eq.trans hrest) hmem, h⟩
  | cons m ms ih =>
    obtain ⟨next, hread, hnext⟩ := ih h.word.blank
    refine ⟨next, ?_, hnext⟩
    rw [readModifiers_cons h.kind_eq m.isModifier, hread]
    rfl

/-- The first word of the keyword of a kind. -/
theorem exists_kindOf_writeKind (kind : TypeKind) (rest : List Piece) :
    ∃ word ∈ ["class", "struct", "interface", "enum", "record"],
      kindOf (Syntax.writeKind kind rest) = .identifier word := by
  cases kind with
  | classType => exact ⟨"class", by decide, rfl⟩
  | structType => exact ⟨"struct", by decide, rfl⟩
  | interfaceType => exact ⟨"interface", by decide, rfl⟩
  | enumType => exact ⟨"enum", by decide, rfl⟩
  | recordType => exact ⟨"record", by decide, rfl⟩
  | recordStruct => exact ⟨"record", by decide, rfl⟩

/-- The keyword of a type is read back before its name. -/
theorem Before.typeKeyword? {kind : TypeKind} {name : Syntax.Name}
    (h : Before source (Syntax.writeKind kind (.blank .space :: .word name.toWord :: rest)) s) :
    ∃ next, s.typeKeyword? = some ⟨kind, next⟩ ∧
      Before source (.word name.toWord :: rest) next := by
  cases kind with
  | recordType =>
    refine ⟨s.advance, ?_, h.word.blank⟩
    have hfirst : s.kind.name? = some "record" := congrArg TokenKind.name? h.kind_eq
    have hsecond : s.secondKind.name? = some name.name := congrArg TokenKind.name? h.secondKind_eq
    have hstruct : name.name ≠ "struct" := name.ne
    have hclass : name.name ≠ "class" := name.ne
    simp [Stream.typeKeyword?, hfirst, hsecond]
  | recordStruct =>
    refine ⟨s.advance.advance, ?_, h.word.blank.word.blank⟩
    have hsecond : s.secondKind = .identifier "struct" := h.secondKind_eq
    rw [Stream.typeKeyword?, h.kind_eq, hsecond]
    rfl
  | _ =>
    refine ⟨s.advance, ?_, h.word.blank⟩
    rw [Stream.typeKeyword?, h.kind_eq]
    rfl

/-! ### Type parameters -/

theorem Before.typeParameters {first : Syntax.Name} {later : List Syntax.Name}
    (h : Before source
      (.word first.toWord :: Syntax.writeLaterNames later (.mark .greater :: rest)) s) :
    ∃ next, Stream.typeParameters none s = .ok ⟨(first :: later).map (·.name), next⟩ ∧
      Before source rest next := by
  induction later generalizing first s with
  | nil =>
    refine ⟨s.advance.advance, ?_, h.word.mark⟩
    rw [typeParameters_identifier h.kind_eq, typeParameters_greater h.word.kind_eq]
    rfl
  | cons second later ih =>
    obtain ⟨next, hread, hnext⟩ := ih h.word.mark.blank
    refine ⟨next, ?_, hnext⟩
    rw [typeParameters_identifier h.kind_eq, typeParameters_comma h.word.kind_eq hread]
    rfl

/-- The list of type parameters is read back. -/
theorem Before.typeParameterList {names : List Syntax.Name} (hrest : kindOf rest ≠ .less)
    (h : Before source (Syntax.writeTypeParameters names rest) s) :
    ∃ next, s.typeParameterList = .ok ⟨names.map (·.name), next⟩ ∧ Before source rest next := by
  cases names with
  | nil =>
    refine ⟨s, ?_, h⟩
    rw [Stream.typeParameterList, if_neg (by rw [h.kind_eq]; exact hrest)]
    rfl
  | cons first later =>
    have hkind : s.kind = .less := h.kind_eq
    obtain ⟨next, hread, hnext⟩ := h.mark.typeParameters
    refine ⟨next, ?_, hnext⟩
    rw [Stream.typeParameterList, if_pos hkind, hread]

/-! ### Base entries -/

section TypeNames

variable {st : EntryState} (n prevEnd : Nat) (rest : List Piece)

/-- A name is part of an entry, wherever it stands. -/
theorem readEntry_word (name : Syntax.Name) :
    readEntry st ⟨tokensAt n (.word name.toWord :: rest), prevEnd⟩ =
      readEntry { st with started := true }
        ⟨tokensAt (n + byteLength name.name.toList) rest, n + byteLength name.name.toList⟩ := by
  have hwhere : name.name ≠ "where" := name.ne
  have hkind : IsEntryPart (.identifier name.name) := by
    simp [IsEntryPart]
  have hends : st.endsAt (.identifier name.name) = false := by
    simp [EntryState.endsAt, TokenKind.isWord, hwhere]
  rw [readEntry_part (s := ⟨tokensAt n (.word name.toWord :: rest), prevEnd⟩) hkind hends]
  exact congrArg _ (advance_cons (by simp) _ _)

/-- A mark is part of an entry if no entry ends at it. -/
theorem readEntry_mark {m : Mark} (hkind : IsEntryPart m.kind) (hends : st.endsAt m.kind = false) :
    readEntry st ⟨tokensAt n (.mark m :: rest), prevEnd⟩ =
      readEntry { st with started := true }
        ⟨tokensAt (n + byteLength m.text) rest, n + byteLength m.text⟩ := by
  rw [readEntry_part (s := ⟨tokensAt n (.mark m :: rest), prevEnd⟩) hkind hends]
  exact congrArg _ (advance_cons hkind.1 _ _)

end TypeNames

mutual

/-- **A type name is read as a whole**: behind it as many angle brackets are open as before it. -/
theorem readEntry_typeName (t : Syntax.TypeName true) (angles : Nat) (started : Bool)
    (n prevEnd : Nat) (rest : List Piece) :
    readEntry ⟨none, angles, started⟩ ⟨tokensAt n (t.write rest), prevEnd⟩ =
      readEntry ⟨none, angles, true⟩ ⟨tokensAt (n + t.width) rest, n + t.width⟩ := by
  match t with
  | .word name =>
    rw [Syntax.TypeName.write, Syntax.TypeName.width_word]
    exact readEntry_word n prevEnd rest name
  | .member outer joint name =>
    have hkind : IsEntryPart joint.mark.kind := by
      cases joint <;> exact ⟨nofun, nofun, nofun, nofun, nofun⟩
    have hends : EntryState.endsAt ⟨none, angles, true⟩ joint.mark.kind = false := by
      cases joint <;> exact Bool.and_false _
    rw [Syntax.TypeName.write, readEntry_typeName outer, outer.width_member]
    simp only [← Nat.add_assoc]
    rw [readEntry_mark _ _ _ hkind hends, readEntry_word]
  | .generic outer arguments =>
    have hless (n prevEnd : Nat) (rest : List Piece) :
        readEntry ⟨none, angles, true⟩ ⟨tokensAt n (.mark .less :: rest), prevEnd⟩ =
          readEntry ⟨none, angles + 1, true⟩ ⟨tokensAt (n + 1) rest, n + 1⟩ :=
      (readEntry_less rfl).trans (congrArg _ (advance_cons (by nofun) _ _))
    have hgreater (n prevEnd : Nat) (rest : List Piece) :
        readEntry ⟨none, angles + 1, true⟩ ⟨tokensAt n (.mark .greater :: rest), prevEnd⟩ =
          readEntry ⟨none, angles, true⟩ ⟨tokensAt (n + 1) rest, n + 1⟩ :=
      (readEntry_greater rfl).trans (congrArg _ (advance_cons (by nofun) _ _))
    rw [Syntax.TypeName.write, readEntry_typeName outer, outer.width_generic]
    simp only [← Nat.add_assoc]
    rw [hless, readEntry_typeArguments arguments _ _ _ _ _ (Nat.succ_pos angles), hgreater]
  | .array _ element rank =>
    rw [Syntax.TypeName.write, readEntry_typeName element, element.width_array]
    simp only [← Nat.add_assoc]
    refine readEntry_openBracket rfl ?_
    exact skipGroups_tokensAt rank _ _ _

/-- Type arguments of a base entry are read over, by recursion over type names. -/
theorem readEntry_typeArguments (as : Syntax.TypeArguments true) (angles : Nat) (started : Bool)
    (n prevEnd : Nat) (rest : List Piece) (h : 0 < angles) :
    readEntry ⟨none, angles, started⟩ ⟨tokensAt n (as.write rest), prevEnd⟩ =
      readEntry ⟨none, angles, true⟩ ⟨tokensAt (n + as.width) rest, n + as.width⟩ := by
  match as with
  | .last argument => exact readEntry_typeName argument angles started n prevEnd rest
  | .more argument gap later =>
    have hends : EntryState.endsAt ⟨none, angles, true⟩ .comma = false := by
      simp [EntryState.endsAt, Nat.ne_of_gt h]
    have hcomma (n prevEnd : Nat) (rest : List Piece) :
        readEntry ⟨none, angles, true⟩ ⟨tokensAt n (.mark .comma :: rest), prevEnd⟩ =
          readEntry ⟨none, angles, true⟩ ⟨tokensAt (n + 1) rest, n + 1⟩ :=
      readEntry_mark n prevEnd rest ⟨nofun, nofun, nofun, nofun, nofun⟩ hends
    rw [Syntax.TypeArguments.write, readEntry_typeName argument, Syntax.TypeArguments.width_more]
    simp only [← Nat.add_assoc]
    rw [hcomma]
    exact readEntry_typeArguments later angles true _ _ _ h

end

/-- What stands behind a base entry. -/
def EndsEntry (kind : TokenKind) : Prop := kind = .comma ∨ kind = .openBrace

/-- A base entry ends before a token that ends one. -/
theorem EndsEntry.readEntry_eq (hends : EndsEntry (kindOf rest)) (n prevEnd : Nat) :
    readEntry ⟨none, 0, true⟩ ⟨tokensAt n rest, prevEnd⟩ =
      .ok ⟨⟨none, 0, true⟩, ⟨tokensAt n rest, prevEnd⟩⟩ := by
  obtain ⟨t, ts, htokens, hkind⟩ := Piece.exists_tokensAt_eq_cons n rest
  rw [← hkind] at hends
  rw [htokens]
  refine readEntry_end ?_ ?_
  · show IsEntryPart t.kind
    rcases hends with hends | hends <;>
      (rw [hends]; exact ⟨nofun, nofun, nofun, nofun, nofun⟩)
  · show EntryState.endsAt ⟨none, 0, true⟩ t.kind = true
    rcases hends with hends | hends <;> (rw [hends]; rfl)

/-- **A printed base entry is read back.** -/
theorem Before.baseEntry {t : Syntax.TypeName true} (hends : EndsEntry (kindOf rest))
    (h : Before source (t.write rest) s) :
    ∃ read, Stream.baseEntry source s = .ok read ∧ read.value.withoutSpan = ⟨t.text, ⟨0, 0⟩⟩ ∧
      Before source rest read.rest := by
  obtain ⟨passed, hsource, hahead⟩ := h
  let stop := byteLength passed + t.width
  have hentry : readEntry ⟨none, 0, false⟩ s =
      .ok ⟨⟨none, 0, true⟩, ⟨tokensAt stop rest, stop⟩⟩ := by
    obtain ⟨ahead, prevEnd⟩ := s
    obtain rfl : ahead = _ := hahead
    rw [readEntry_typeName, hends.readEntry_eq]
  have hslice : Text.slice (byteLength passed) stop source = textOf (t.write []) := by
    rw [hsource, t.textOf_write]
    exact Text.slice_append _ _ _
  have hstart : s.start = byteLength passed := start_eq hahead
  refine ⟨⟨⟨t.text, ⟨byteLength passed, stop⟩⟩, ⟨tokensAt stop rest, stop⟩⟩, ?_, rfl,
    passed ++ textOf (t.write []), ?_, ?_⟩
  · rw [Stream.baseEntry, hentry, ok_bind]
    simp only [cutEntry, hstart, Option.getD_none, Bool.not_true, Bool.false_eq_true, if_false]
    rw [if_neg (Nat.not_lt.2 (Nat.le_add_right _ _)), hslice, t.trim_textOf_write]
    rfl
  · rw [hsource, t.textOf_write, List.append_assoc]
  · rw [Text.byteLength_append]
    rfl

/-- Base entries are read back, by induction on them. -/
theorem Before.baseEntries {first : Syntax.TypeName true} {later : List (Syntax.TypeName true)}
    (hrest : kindOf rest = .openBrace)
    (h : Before source (first.write (Syntax.writeLaterBases later rest)) s) :
    ∃ read, Stream.baseEntries source s = .ok read ∧
      read.value.map BaseEntry.withoutSpan = (first :: later).map (⟨·.text, ⟨0, 0⟩⟩) ∧
      Before source rest read.rest := by
  induction later generalizing first s with
  | nil =>
    obtain ⟨read, hread, hvalue, hnext⟩ := Before.baseEntry (.inr hrest) h
    refine ⟨⟨[read.value], read.rest⟩, ?_, congrArg (fun base ↦ [base]) hvalue, hnext⟩
    have hcomma : read.rest.kind ≠ .comma := by
      rw [hnext.kind_eq, hrest]
      nofun
    rw [baseEntries_eq, hread, ok_bind, if_neg hcomma]
    rfl
  | cons second later ih =>
    obtain ⟨read, hread, hvalue, hnext⟩ := Before.baseEntry (.inl rfl) h
    have hcomma : read.rest.kind = .comma := hnext.kind_eq
    obtain ⟨reads, hreads, hvalues, hlast⟩ := ih hnext.mark.blank
    refine ⟨⟨read.value :: reads.value, reads.rest⟩, ?_, ?_, hlast⟩
    · rw [baseEntries_eq, hread, ok_bind, if_pos hcomma, hreads]
      rfl
    · rw [List.map_cons, hvalue, hvalues]
      rfl

/-- **A base list is read back.** -/
theorem Before.baseList {bases : List (Syntax.TypeName true)} (hrest : kindOf rest = .openBrace)
    (h : Before source (Syntax.writeBases bases rest) s) :
    ∃ read, s.baseList source = .ok read ∧
      read.value.map BaseEntry.withoutSpan = bases.map (⟨·.text, ⟨0, 0⟩⟩) ∧
      Before source rest read.rest := by
  cases bases with
  | nil =>
    refine ⟨⟨[], s⟩, ?_, rfl, h⟩
    rw [Stream.baseList, if_neg]
    rw [h.kind_eq, Syntax.writeBases, hrest]
    nofun
  | cons first later =>
    obtain ⟨read, hread, hvalue, hnext⟩ := h.blank.mark.blank.baseEntries hrest
    have hkind : s.kind = .colon := h.kind_eq
    exact ⟨read, by rw [Stream.baseList, if_pos hkind, hread], hvalue, hnext⟩

/-! ### Declarations -/

/-- The body of a type is read over. -/
theorem Before.typeBody {g : Group .brace} (name : String) (hrest : kindOf rest ≠ .semicolon)
    (h : Before source (.group g :: rest) s) :
    ∃ next, s.typeBody name = .ok next ∧ Before source rest next := by
  obtain ⟨next, hskip, hnext⟩ := h.group
  have hkind : s.kind = .openBrace := h.kind_eq
  have heat : next = next.eat .semicolon := by
    rw [eat, if_neg]
    rw [hnext.kind_eq]
    exact hrest
  exact ⟨next, typeBody_eq_ok_iff.2 (.inl ⟨hkind, next, hskip, heat⟩), hnext⟩

theorem kindOf_writeBases (bases : List (Syntax.TypeName true)) (rest : List Piece) :
    kindOf (Syntax.writeBases bases rest) = .colon ∨
      kindOf (Syntax.writeBases bases rest) = kindOf rest := by
  cases bases with
  | nil => exact .inr rfl
  | cons first later => exact .inl rfl

/-- **A printed declaration is read back**, its header and its body. -/
theorem Before.declarator {d : Syntax.Declaration} {depth : Nat} (ordinal start : Nat)
    (header : HeaderStart) (hrest : kindOf rest ≠ .semicolon)
    (h : Before source (d.writeName depth rest) s) :
    ∃ read, s.declarator source ordinal start header = .ok read ∧
      read.value.withoutSpans = { d.tree ordinal with
        kind := header.kind
        modifiers := header.modifiers
        sections := header.sections.map AttributeSection.withoutSpans } ∧
      Before source rest read.rest := by
  let body : List Piece := .blank .lineBreak :: .blank (.indent depth) :: .group d.body :: rest
  have hbody : kindOf body = .openBrace := rfl
  have hbehind : kindOf (Syntax.writeBases d.bases body) ≠ .less ∧
      kindOf (Syntax.writeBases d.bases body) ≠ .openParen := by
    rcases kindOf_writeBases d.bases body with hkind | hkind
    · rw [hkind]
      decide
    · rw [hkind, hbody]
      decide
  obtain ⟨parameters, hparameters, hbases⟩ := h.word.typeParameterList hbehind.1
  have hskip : parameters.skipParameters = .ok parameters := by
    rw [skipParameters, if_neg]
    rw [hbases.kind_eq]
    exact hbehind.2
  obtain ⟨bases, hread, hvalue, hnext⟩ := hbases.baseList hbody
  have hconstraints : bases.rest.constraints = .ok bases.rest := by
    rw [constraints, if_neg]
    rw [hnext.kind_eq]
    rintro ⟨⟩
  obtain ⟨last, hlast, hbehind⟩ := hnext.blank.blank.typeBody d.name.name hrest
  have hname : s.kind.name? = some d.name.name := congrArg TokenKind.name? h.kind_eq
  refine ⟨_, declarator_eq_ok_iff.2 ⟨_, _, _, _, _, _, hname, hparameters, hskip, hread,
    hconstraints, hlast, rfl⟩, ?_, hbehind⟩
  simp only [TypeDeclaration.withoutSpans, hvalue]
  rfl

/-- The words that declare types are no modifiers. -/
theorem notMem_modifierWords {word : String}
    (h : word ∈ ["class", "struct", "interface", "enum", "record"]) : word ∉ modifierWords := by
  revert word
  decide

/-- The first word of a declaration without attributes. -/
theorem exists_kindOf_writeModifiers (ms : List Syntax.Modifier) (kind : TypeKind)
    (rest : List Piece) :
    ∃ word, (word ∈ modifierWords ∨ word ∈ ["class", "struct", "interface", "enum", "record"]) ∧
      kindOf (Syntax.writeModifiers ms (Syntax.writeKind kind rest)) = .identifier word := by
  cases ms with
  | nil =>
    obtain ⟨word, hword, hkind⟩ := exists_kindOf_writeKind kind rest
    exact ⟨word, .inr hword, hkind⟩
  | cons m ms => exact ⟨m.name, .inl m.isModifier, rfl⟩

/-- **A printed declaration is read back**, attributes included. -/
theorem Before.typeDeclaration? {d : Syntax.Declaration} {depth : Nat} (ordinal : Nat)
    (hrest : kindOf rest ≠ .semicolon) (h : Before source (d.write depth rest) s) :
    ∃ read, s.typeDeclaration? source ordinal = .ok (some read) ∧
      read.value.withoutSpans = d.tree ordinal ∧ Before source rest read.rest := by
  let behind : List Piece := .blank .space :: d.writeName depth rest
  have hfirst : kindOf (Syntax.writeModifiers d.modifiers (Syntax.writeKind d.kind behind)) ≠
      .openBracket := by
    obtain ⟨word, -, hkind⟩ := exists_kindOf_writeModifiers d.modifiers d.kind behind
    rw [hkind]
    nofun
  obtain ⟨sections, hsections, hvalues, hmodifiers⟩ := Before.sections? hfirst h
  obtain ⟨word, hword, hkind⟩ := exists_kindOf_writeKind d.kind behind
  obtain ⟨next, hread, hnext⟩ := hmodifiers.readModifiers hkind (notMem_modifierWords hword)
  obtain ⟨name, hkeyword, hname⟩ := hnext.typeKeyword?
  have hheader : s.headerStart? source =
      some ⟨⟨sections.value, d.modifiers.map (·.name), d.kind⟩, name⟩ := by
    simp only [headerStart?, hsections, hread, hkeyword]
  obtain ⟨read, hdeclarator, hvalue, hlast⟩ := Before.declarator ordinal s.start
    ⟨sections.value, d.modifiers.map (·.name), d.kind⟩ hrest hname
  refine ⟨read, ?_, ?_, hlast⟩
  · simp only [Stream.typeDeclaration?, hheader, hdeclarator]
    rfl
  · rw [hvalue, hvalues]
    rfl

end Stream

end DoubleDispatch
