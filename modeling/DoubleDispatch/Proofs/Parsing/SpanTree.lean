import DoubleDispatch.Proofs.Parsing.Strays
import DoubleDispatch.Proofs.Token.Tiling

/-!
# The spans of a tree

What a parser reads runs from the start of the token it begins with to the end of the last one it
took. So the parts of a declaration follow each other inside its span, and the items of a body
inside that of its namespace, each behind the last (`SourceTree.parse_nests`).

Where a part may be empty, its bounds are the ends of the tokens taken so far; these only move
forward. Sections of attributes are the exception: they stand first, where only the start of the
next token is inside the declaration.
-/

namespace DoubleDispatch

open Text (byteLength)

/-! ### Spans in order -/

/-- Spans that lie inside another one, each behind the last. -/
structure Span.InOrder (outer : Span) (spans : List Span) : Prop where
  increasing : spans.Pairwise fun a b ↦ a.stop ≤ b.start
  inside : ∀ span ∈ spans,
    outer.start ≤ span.start ∧ span.start ≤ span.stop ∧ span.stop ≤ outer.stop

namespace Span.InOrder

variable {lo mid hi : Nat} {span : Span} {spans later : List Span}

theorem nil (outer : Span) : outer.InOrder [] := ⟨.nil, by simp⟩

/-- Spans in order lie in any larger span as well. -/
theorem mono {lo' hi' : Nat} (h : InOrder ⟨lo, hi⟩ spans) (hlo : lo' ≤ lo) (hhi : hi ≤ hi') :
    InOrder ⟨lo', hi'⟩ spans where
  increasing := h.increasing
  inside := fun span hspan ↦ by
    obtain ⟨hstart, hle, hstop⟩ := h.inside span hspan
    exact ⟨Nat.le_trans hlo hstart, hle, Nat.le_trans hstop hhi⟩

theorem append (h : InOrder ⟨lo, mid⟩ spans) (hlater : InOrder ⟨mid, hi⟩ later) (hlo : lo ≤ mid)
    (hhi : mid ≤ hi) : InOrder ⟨lo, hi⟩ (spans ++ later) where
  increasing := List.pairwise_append.2 ⟨h.increasing, hlater.increasing, fun a ha b hb ↦
    Nat.le_trans (h.inside a ha).2.2 (hlater.inside b hb).1⟩
  inside := List.forall_mem_append.2
    ⟨(h.mono (Nat.le_refl lo) hhi).inside, (hlater.mono hlo (Nat.le_refl hi)).inside⟩

theorem cons (hstart : lo ≤ span.start) (hle : span.start ≤ span.stop) (hstop : span.stop ≤ hi)
    (hlater : InOrder ⟨span.stop, hi⟩ later) : InOrder ⟨lo, hi⟩ (span :: later) := by
  have hone : InOrder ⟨lo, span.stop⟩ [span] :=
    ⟨List.pairwise_singleton _ _, List.forall_mem_singleton.2 ⟨hstart, hle, Nat.le_refl _⟩⟩
  exact hone.append hlater (Nat.le_trans hstart hle) hstop

end Span.InOrder

/-- The text of an identifier is its name, with an `@` before it or without. -/
theorem TokenKind.IsSpelled.eq_or_eq_cons {name : String} {text : List Char}
    (h : IsSpelled (.identifier name) text) : text = name.toList ∨ text = '@' :: name.toList := by
  cases h with
  | word => exact .inl rfl
  | verbatim => exact .inr rfl
  | mark hname => cases hname

/-! ### Trees -/

/-- The span of a member. -/
def Member.span : Member → Span
  | .type declaration => declaration.span
  | .scope _ _ _ _ span => span

/-- The parts of a declaration: its sections, its name and its base entries. -/
def TypeDeclaration.partSpans (d : TypeDeclaration) : List Span :=
  d.sections.map (·.span) ++ d.nameSpan :: d.bases.map (·.span)

/-- The parts of a declaration follow each other inside its span, and the attributes of a section
inside that of the section. The name is the text at its span, which may have an `@` before it, and
a base entry is the text at its span without white space around it. -/
structure TypeDeclaration.IsNested (source : List Char) (d : TypeDeclaration) : Prop where
  parts : d.span.InOrder d.partSpans
  attributes : ∀ part ∈ d.sections, part.span.InOrder (part.attributes.map (·.span))
  name : Text.slice d.nameSpan.start d.nameSpan.stop source = d.name.toList ∨
    Text.slice d.nameSpan.start d.nameSpan.stop source = '@' :: d.name.toList
  bases : ∀ base ∈ d.bases,
    base.text = String.ofList (Text.trim (Text.slice base.span.start base.span.stop source))

/-- The directives and members of a body lie inside a span. None of them is empty, each list is
increasing, and no directive overlaps with a member. -/
structure Span.HoldsBody (outer : Span) (usings : List UsingDirective) (members : List Member) :
    Prop where
  usingSpans : outer.InOrder (usings.map (·.span))
  memberSpans : outer.InOrder (members.map (·.span))
  nonempty : (∀ u ∈ usings, u.span.start < u.span.stop) ∧
    ∀ m ∈ members, m.span.start < m.span.stop
  disjoint : ∀ u ∈ usings, ∀ m ∈ members,
    u.span.stop ≤ m.span.start ∨ m.span.stop ≤ u.span.start

/-- A member is nested: a type with its parts, a namespace with its body, and so is every member in
it. -/
inductive Member.IsNested (source : List Char) : Member → Prop
  | type {d : TypeDeclaration} (h : d.IsNested source) : IsNested source (.type d)
  | scope {name : String} {fileScoped : Bool} {usings : List UsingDirective}
      {members : List Member} {span : Span} (body : span.HoldsBody usings members)
      (nested : ∀ m ∈ members, IsNested source m) :
    IsNested source (.scope name fileScoped usings members span)

/-- The spans of a file are a tree inside the whole source. -/
structure SourceFile.IsNested (source : List Char) (file : SourceFile) : Prop where
  body : Span.HoldsBody ⟨0, byteLength source⟩ file.usings file.members
  nested : ∀ m ∈ file.members, m.IsNested source

namespace Span.HoldsBody

variable {lo hi : Nat} {usings : List UsingDirective} {members : List Member}

theorem nil (outer : Span) : outer.HoldsBody [] [] := ⟨.nil _, .nil _, by simp, by simp⟩

theorem mono {lo' hi' : Nat} (h : HoldsBody ⟨lo, hi⟩ usings members) (hlo : lo' ≤ lo)
    (hhi : hi ≤ hi') : HoldsBody ⟨lo', hi'⟩ usings members where
  usingSpans := h.usingSpans.mono hlo hhi
  memberSpans := h.memberSpans.mono hlo hhi
  nonempty := h.nonempty
  disjoint := h.disjoint

/-- A directive stands before the rest of a body. -/
theorem consUsing {u : UsingDirective} {start stop : Nat} (hspan : u.span = ⟨start, stop⟩)
    (hstart : lo ≤ start) (hlt : start < stop) (hstop : stop ≤ hi)
    (h : HoldsBody ⟨stop, hi⟩ usings members) : HoldsBody ⟨lo, hi⟩ (u :: usings) members where
  usingSpans := by
    rw [List.map_cons, hspan]
    exact .cons hstart (Nat.le_of_lt hlt) hstop h.usingSpans
  memberSpans := h.memberSpans.mono (Nat.le_trans hstart (Nat.le_of_lt hlt)) (Nat.le_refl hi)
  nonempty := ⟨List.forall_mem_cons.2 ⟨by rwa [hspan], h.nonempty.1⟩, h.nonempty.2⟩
  disjoint := by
    refine List.forall_mem_cons.2 ⟨fun m hm ↦ .inl ?_, h.disjoint⟩
    rw [hspan]
    exact (h.memberSpans.inside _ (List.mem_map_of_mem hm)).1

/-- A member stands before the rest of a body. -/
theorem consMember {m : Member} {start stop : Nat} (hspan : m.span = ⟨start, stop⟩)
    (hstart : lo ≤ start) (hlt : start < stop) (hstop : stop ≤ hi)
    (h : HoldsBody ⟨stop, hi⟩ usings members) : HoldsBody ⟨lo, hi⟩ usings (m :: members) where
  usingSpans := h.usingSpans.mono (Nat.le_trans hstart (Nat.le_of_lt hlt)) (Nat.le_refl hi)
  memberSpans := by
    rw [List.map_cons, hspan]
    exact .cons hstart (Nat.le_of_lt hlt) hstop h.memberSpans
  nonempty := ⟨h.nonempty.1, List.forall_mem_cons.2 ⟨by rwa [hspan], h.nonempty.2⟩⟩
  disjoint := fun u hu ↦ by
    refine List.forall_mem_cons.2 ⟨.inr ?_, h.disjoint u hu⟩
    rw [hspan]
    exact (h.usingSpans.inside _ (List.mem_map_of_mem hu)).1

end Span.HoldsBody

namespace Stream

variable {source : List Char} {s t : Stream}

/-! ### From the start of a token to the end of another -/

/-- No token is empty, except for the end of the file. -/
theorem In.start_lt (hs : s.In source) (hk : s.kind ≠ .endOfFile) : s.start < s.span.stop := by
  obtain ⟨_ | ⟨t, ts⟩, prevEnd⟩ := s
  · exact absurd rfl hk
  · cases hs.ahead with
    | endOfFile => exact absurd rfl hk
    | cons _ _ stands => exact stands.lt

namespace LeadsTo

/-- At the end of the file nothing is taken. -/
theorem eq_of_endOfFile (h : s.LeadsTo t) (hk : s.kind = .endOfFile) : t = s := by
  induction h with
  | refl => rfl
  | advance _ ih => rw [ih, advance_of_endOfFile hk]

/-- Taking tokens does not go back behind the next token. -/
theorem start_le (h : s.LeadsTo t) (hs : s.In source) : s.start ≤ t.start := by
  by_cases hk : s.kind = .endOfFile
  · rw [h.eq_of_endOfFile hk]
  · rcases h.eq_or_advance with rfl | hadvance
    · exact Nat.le_refl _
    · exact Nat.le_trans (hadvance.start_le_prevEnd hs hk) (h.in hs).prevEnd_le_start

/-- What was read from the next token on is not empty. -/
theorem start_lt_prevEnd (h : s.LeadsTo t) (hs : s.In source) (hlt : t.size < s.size) :
    s.start < t.prevEnd := by
  have hk : s.kind ≠ .endOfFile := by
    intro hk
    rw [h.eq_of_endOfFile hk] at hlt
    exact Nat.lt_irrefl _ hlt
  rcases h.eq_or_advance with rfl | hadvance
  · exact absurd hlt (Nat.lt_irrefl _)
  · have hle := hadvance.prevEnd_le hs.advance
    rw [prevEnd_advance hk] at hle
    exact Nat.lt_of_lt_of_le (hs.start_lt hk) hle

/-- The tokens ahead were ahead before. -/
theorem mem_ahead (h : s.LeadsTo t) : ∀ u ∈ t.ahead, u ∈ s.ahead := by
  induction h with
  | refl => exact fun _ ↦ id
  | @advance t _ ih =>
    intro u hu
    by_cases hk : t.kind = .endOfFile
    · rw [advance_of_endOfFile hk] at hu
      exact ih u hu
    · obtain ⟨first, hahead, -⟩ := exists_ahead_eq hk
      exact ih u (hahead ▸ List.mem_cons_of_mem first hu)

end LeadsTo

/-! ### Attributes -/

/-- An attribute runs from its first token to the last one that it takes. -/
theorem span_of_attribute? {a : Parsed Attribute} (h : s.attribute? source = some a) :
    a.value.span = ⟨s.start, a.rest.prevEnd⟩ := by
  obtain ⟨name, next, -, -, rfl⟩ := attribute?_eq_some_iff.1 h
  rfl

theorem inOrder_of_attributes? {as : Parsed (List Attribute)} (hs : s.In source)
    (h : s.attributes? source = some as) :
    Span.InOrder ⟨s.prevEnd, as.rest.prevEnd⟩ (as.value.map (·.span)) := by
  have hone {s : Stream} {a : Parsed Attribute} (hs : s.In source)
      (h : s.attribute? source = some a) : s.prevEnd ≤ a.value.span.start ∧
        a.value.span.start ≤ a.value.span.stop ∧ a.value.span.stop = a.rest.prevEnd := by
    rw [span_of_attribute? h]
    have hlt := (leadsTo_attribute? hs h).start_lt_prevEnd hs (size_attribute?_lt h)
    exact ⟨hs.prevEnd_le_start, Nat.le_of_lt hlt, rfl⟩
  fun_induction attributes? source s generalizing as with
  | case1 => cases h; exact .nil _
  | case2 => cases h
  | case3 => cases h
  | case4 s _ first hfirst _ _ later hlater ih =>
    obtain ⟨hstart, hle, hstop⟩ := hone hs hfirst
    have hrest := (leadsTo_attribute? hs hfirst).in hs
    have hleads := leadsTo_attributes? hrest.advance hlater
    have hinOrder := ih hrest.advance hlater
    have hcomma := (LeadsTo.step first.rest).prevEnd_le hrest
    cases h
    refine .cons hstart hle ?_ (hinOrder.mono ?_ (Nat.le_refl _))
    · rw [hstop]
      exact Nat.le_trans hcomma (hleads.prevEnd_le hrest.advance)
    · rw [hstop]
      exact hcomma
  | case5 s _ first hfirst =>
    obtain ⟨hstart, hle, hstop⟩ := hone hs hfirst
    cases h
    exact .cons hstart hle (Nat.le_of_eq hstop) (.nil _)

/-- A section runs from its opening bracket to its closing one, with the attributes in between. -/
theorem span_of_section? {a : Parsed AttributeSection} (hs : s.In source)
    (hk : s.kind ≠ .endOfFile) (h : s.section? source = some a) :
    a.value.span = ⟨s.start, a.rest.prevEnd⟩ ∧
      a.value.span.InOrder (a.value.attributes.map (·.span)) := by
  obtain ⟨attributes, -, hattributes, -, -, rfl⟩ := section?_eq_some_iff.1 h
  have hbehind := (leadsTo_target s.advance).in hs.advance
  have hstart := (leadsTo_target s.advance).start_le_prevEnd hs hk
  have hstop := (LeadsTo.step attributes.rest).prevEnd_le
    ((leadsTo_attributes? hbehind hattributes).in hbehind)
  exact ⟨rfl, (inOrder_of_attributes? hbehind hattributes).mono hstart hstop⟩

/-- Sections lie before the token behind them, and in each lie its attributes. -/
theorem inOrder_of_sections? {as : Parsed (List AttributeSection)} (hs : s.In source)
    (h : s.sections? source = some as) :
    Span.InOrder ⟨s.start, as.rest.start⟩ (as.value.map (·.span)) ∧
      ∀ part ∈ as.value, part.span.InOrder (part.attributes.map (·.span)) := by
  fun_induction sections? source s generalizing as with
  | case1 => cases h
  | case2 => cases h
  | case3 s hk first hfirst hlt later hlater ih =>
    obtain ⟨hspan, hattributes⟩ := span_of_section? hs (by rw [hk]; decide) hfirst
    have hleads := leadsTo_section? hs hfirst
    have hrest := hleads.in hs
    obtain ⟨hinOrder, hall⟩ := ih hrest hlater
    have hbehind := (leadsTo_sections? hrest hlater).start_le hrest
    have hnext := hrest.prevEnd_le_start
    have hbefore := hleads.start_lt_prevEnd hs hlt
    cases h
    refine ⟨?_, List.forall_mem_cons.2 ⟨hattributes, hall⟩⟩
    rw [List.map_cons, hspan]
    exact .cons (Nat.le_refl _) (Nat.le_of_lt hbefore) (Nat.le_trans hnext hbehind)
      (hinOrder.mono hnext (Nat.le_refl _))
  | case4 => cases h; exact ⟨.nil _, by simp⟩

/-! ### Base lists -/

/-- The text of an entry does not go on behind the entry. -/
theorem textEnd_le_of_readEntry {st : EntryState} {entry : Parsed EntryState} (hs : s.In source)
    (hst : ∀ n ∈ st.textEnd, n ≤ s.prevEnd) (h : readEntry st s = .ok entry) :
    ∀ n ∈ entry.value.textEnd, n ≤ entry.rest.prevEnd := by
  have hmono {s next : Stream} {textEnd : Option Nat} (hs : s.In source) (hleads : s.LeadsTo next)
      (hle : ∀ n ∈ textEnd, n ≤ s.prevEnd) : ∀ n ∈ textEnd, n ≤ next.prevEnd :=
    fun n hn ↦ Nat.le_trans (hle n hn) (hleads.prevEnd_le hs)
  fun_induction readEntry st s with
  | case1 => cases h; exact hst
  | case2 _ s _ _ _ ih => exact ih hs.advance (hmono hs (.step s) hst) h
  | case3 _ s _ _ _ ih => exact ih hs.advance (hmono hs (.step s) hst) h
  | case4 => cases h
  | case5 st s _ _ _ next hnext _ textEnd ih =>
    have hleads := leadsTo_skipGroup hs hnext
    refine ih (hleads.in hs) (hmono hs hleads fun n hn ↦ ?_) h
    -- The arguments of a base constructor end the text where they start, or it has ended before.
    have hn : n ∈ if st.angles = 0 then st.textEnd <|> some s.prevEnd else st.textEnd := hn
    split at hn
    · cases htext : st.textEnd with
      | none =>
        rw [htext] at hn
        exact Nat.le_of_eq (Option.some.inj hn).symm
      | some m =>
        rw [htext] at hn
        exact hst n (htext.trans hn)
    · exact hst n hn
  | case6 => cases h
  | case7 _ s _ _ _ next hnext _ ih =>
    have hleads := leadsTo_skipGroup hs hnext
    exact ih (hleads.in hs) (hmono hs hleads hst) h
  | case8 => cases h; exact hst
  | case9 _ s _ _ _ _ _ _ _ ih => exact ih hs.advance (hmono hs (.step s) hst) h

/-- An entry starts with its first token and does not go on behind its last one. Its text is the
text at its span, without white space around it. -/
theorem span_of_baseEntry {base : Parsed BaseEntry} (hs : s.In source)
    (h : baseEntry source s = .ok base) :
    base.value.span.start = s.start ∧ base.value.span.start ≤ base.value.span.stop ∧
      base.value.span.stop ≤ base.rest.prevEnd ∧ s.LeadsTo base.rest ∧
      base.value.text = String.ofList (Text.trim
        (Text.slice base.value.span.start base.value.span.stop source)) := by
  obtain ⟨entry, hentry, h⟩ := exists_of_bind_eq_ok h
  have hleads := (readsOn_readEntry hs hentry).leadsTo
  have htext := textEnd_le_of_readEntry hs (by simp) hentry
  simp only [cutEntry] at h
  split at h
  · cases h
  split at h
  · cases h
  next hforward =>
    cases h
    refine ⟨rfl, Nat.le_of_not_lt hforward, ?_, hleads, rfl⟩
    cases hend : entry.value.textEnd with
    | none => exact Nat.le_refl _
    | some n => exact htext n hend

theorem inOrder_of_baseEntries {bases : Parsed (List BaseEntry)} (hs : s.In source)
    (h : baseEntries source s = .ok bases) :
    s.LeadsTo bases.rest ∧
      Span.InOrder ⟨s.prevEnd, bases.rest.prevEnd⟩ (bases.value.map (·.span)) ∧
      ∀ base ∈ bases.value, base.text =
        String.ofList (Text.trim (Text.slice base.span.start base.span.stop source)) := by
  induction hn : s.size using Nat.strongRecOn generalizing s bases with
  | ind n ih =>
    rw [baseEntries_eq] at h
    obtain ⟨base, hbase, h⟩ := exists_of_bind_eq_ok h
    obtain ⟨hstart, hle, hstop, hleads, htext⟩ := span_of_baseEntry hs hbase
    have hbefore : s.prevEnd ≤ base.value.span.start := hstart ▸ hs.prevEnd_le_start
    have hrest := hleads.in hs
    split at h
    next hcomma =>
      obtain ⟨later, hlater, h⟩ := exists_of_bind_eq_ok h
      cases h
      have hsize : base.rest.advance.size < n := by
        rw [← hn]
        exact Nat.lt_of_lt_of_le (size_advance_lt (by rw [hcomma]; nofun)) (size_baseEntry_le hbase)
      obtain ⟨hleadsLater, hinOrder, htexts⟩ := ih _ hsize hrest.advance hlater rfl
      have hnext := Nat.le_trans hstop ((LeadsTo.step base.rest).prevEnd_le hrest)
      refine ⟨(hleads.advance).trans hleadsLater, ?_, List.forall_mem_cons.2 ⟨htext, htexts⟩⟩
      exact .cons hbefore hle (Nat.le_trans hnext (hleadsLater.prevEnd_le hrest.advance))
        (hinOrder.mono hnext (Nat.le_refl _))
    next =>
      cases h
      exact ⟨hleads, .cons hbefore hle hstop (.nil _), List.forall_mem_singleton.2 htext⟩

theorem inOrder_of_baseList {bases : Parsed (List BaseEntry)} (hs : s.In source)
    (h : s.baseList source = .ok bases) :
    s.LeadsTo bases.rest ∧
      Span.InOrder ⟨s.prevEnd, bases.rest.prevEnd⟩ (bases.value.map (·.span)) ∧
      ∀ base ∈ bases.value, base.text =
        String.ofList (Text.trim (Text.slice base.span.start base.span.stop source)) := by
  rw [baseList] at h
  split at h
  · obtain ⟨hleads, hinOrder, htexts⟩ := inOrder_of_baseEntries hs.advance h
    have hcolon := (LeadsTo.step s).prevEnd_le hs
    exact ⟨(LeadsTo.step s).trans hleads, hinOrder.mono hcolon (Nat.le_refl _), htexts⟩
  · cases h
    exact ⟨.refl, .nil _, by simp⟩

/-! ### Declarations -/

/-- The tokens ahead have the texts of their kinds. -/
def SpelledIn (source : List Char) (s : Stream) : Prop :=
  ∀ t ∈ s.ahead, t.kind ≠ .endOfFile →
    t.kind.IsSpelled (Text.slice t.span.start t.span.stop source)

theorem SpelledIn.of_leadsTo (h : s.SpelledIn source) (hst : s.LeadsTo t) : t.SpelledIn source :=
  fun u hu ↦ h u (hst.mem_ahead u hu)

/-- A declaration is nested if the sections before its keyword are. -/
theorem isNested_of_declarator {ordinal start : Nat} {header : HeaderStart}
    {d : Parsed TypeDeclaration} (hs : s.In source) (hspelled : s.SpelledIn source)
    (hstart : start ≤ s.start)
    (hsections : Span.InOrder ⟨start, s.start⟩ (header.sections.map (·.span)))
    (hattributes : ∀ part ∈ header.sections,
      part.span.InOrder (part.attributes.map (·.span)))
    (h : declarator source ordinal start header s = .ok d) :
    d.value.span = ⟨start, d.rest.prevEnd⟩ ∧ d.value.IsNested source := by
  obtain ⟨name, parameters, mark, bases, behind, last, hname, hparameters, hmark, hbases, hbehind,
    hlast, rfl⟩ := declarator_eq_ok_iff.1 h
  have hk := kind_ne_endOfFile_of_name? hname
  have hleads := (yields_typeParameterList hs.advance).leadsTo hparameters
  have hleads := hleads.trans ((yields_skipParameters (hleads.in hs.advance)).leadsTo hmark)
  have hin := hleads.in hs.advance
  obtain ⟨hlist, hinOrder, htexts⟩ := inOrder_of_baseList hin hbases
  have hend := (yields_constraints (hlist.in hin)).leadsTo hbehind
  have hend := LeadsTo.trans hend
    ((yields_typeBody name (LeadsTo.in hend (hlist.in hin))).leadsTo hlast)
  -- From the name on the ends of the tokens taken go forward to the end of the body.
  have hbefore : s.span.stop ≤ mark.prevEnd := by
    rw [← prevEnd_advance hk]
    exact hleads.prevEnd_le hs.advance
  have hafter : bases.rest.prevEnd ≤ last.prevEnd := LeadsTo.prevEnd_le hend (hlist.in hin)
  have hbetween := hlist.prevEnd_le hin
  refine ⟨rfl, ?_, hattributes, ?_, htexts⟩
  · refine hsections.append (.cons (Nat.le_refl _) hs.span_fits.le ?_
      (hinOrder.mono hbefore hafter)) hstart ?_
    · exact Nat.le_trans hbefore (Nat.le_trans hbetween hafter)
    · exact Nat.le_trans hs.span_fits.le (Nat.le_trans hbefore (Nat.le_trans hbetween hafter))
  · obtain ⟨first, hahead, hfirst, hspan⟩ := exists_ahead_eq hk
    have htext := hspelled first (hahead ▸ List.mem_cons_self) (by rwa [hfirst])
    rw [hfirst, hspan, eq_identifier_of_name? hname] at htext
    exact htext.eq_or_eq_cons

theorem isNested_of_typeDeclaration? {ordinal : Nat} {d : Parsed TypeDeclaration}
    (hs : s.In source) (hspelled : s.SpelledIn source)
    (h : s.typeDeclaration? source ordinal = .ok (some d)) :
    d.value.span = ⟨s.start, d.rest.prevEnd⟩ ∧ d.value.IsNested source := by
  obtain ⟨header, hheader, hd⟩ := exists_headerStart?_of_typeDeclaration? h
  have hleads := leadsTo_headerStart? hs hheader
  obtain ⟨sections, kind, hsections, hkind, rfl⟩ := headerStart?_eq_some_iff.1 hheader
  obtain ⟨hinOrder, hattributes⟩ := inOrder_of_sections? hs hsections
  have hbehind := (leadsTo_sections? hs hsections).in hs
  have hkeyword := ((leadsTo_readModifiers _ _).trans (leadsTo_typeKeyword? hkind)).start_le hbehind
  exact isNested_of_declarator (hleads.in hs) (hspelled.of_leadsTo hleads) (hleads.start_le hs)
    (hinOrder.mono (Nat.le_refl _) hkeyword) hattributes hd

/-! ### Bodies -/

theorem span_of_using? {u : Parsed UsingDirective} (h : s.using? source = some u) :
    u.value.span = ⟨s.start, u.rest.prevEnd⟩ := by
  have htarget {isGlobal : Bool} {start : Nat} {s : Stream}
      (h : s.usingTarget? source isGlobal start = some u) :
      u.value.span = ⟨start, u.rest.prevEnd⟩ := by
    obtain ⟨target, -, -, rfl⟩ := usingTarget?_eq_some_iff.1 h
    rfl
  rw [using?] at h
  split at h
  · exact htarget h
  · split at h
    · exact htarget h
    · cases h

/-- **The items of a body** lie between the tokens taken before it and the last one of its own, and
its members are nested. -/
theorem Reads.holdsBody {braced : Bool} {ordinal : Nat} {b : Body}
    (h : Reads source braced ordinal s b) (hs : s.In source) (hspelled : s.SpelledIn source) :
    s.LeadsTo b.rest ∧ Span.HoldsBody ⟨s.prevEnd, b.rest.prevEnd⟩ b.usings b.members ∧
      ∀ m ∈ b.members, m.IsNested source := by
  induction h with
  | done => exact ⟨.refl, .nil _, by simp⟩
  | usingDirective _ found _ ih =>
    have hleads := leadsTo_using? hs found
    have hin := hleads.in hs
    obtain ⟨hlater, hbody, hnested⟩ := ih hin (hspelled.of_leadsTo hleads)
    have hlt := hleads.start_lt_prevEnd hs (size_using?_lt found)
    exact ⟨hleads.trans hlater, .consUsing (span_of_using? found) hs.prevEnd_le_start hlt
      (hlater.prevEnd_le hin) hbody, hnested⟩
  | @scope _ _ s header content later _ _ _ found hcontent _ ihcontent ihlater =>
    have hheader := (LeadsTo.step s).trans ((yields_namespaceHeader hs.advance).leadsTo found)
    obtain ⟨hinside, hbody, hnested⟩ := ihcontent (hheader.in hs) (hspelled.of_leadsTo hheader)
    have hend := leadsTo_behindBody header.value.2 content.rest
    have hleads := (hheader.trans hinside).trans hend
    obtain ⟨hlater, hbodyLater, hnestedLater⟩ :=
      ihlater (hleads.in hs) (hspelled.of_leadsTo hleads)
    have hheaderSize : header.rest.size < s.size :=
      Nat.lt_of_lt_of_le (size_namespaceHeader_lt found) s.size_advance_le
    have hsize : (content.rest.behindBody header.value.2).size < s.size :=
      Nat.lt_of_le_of_lt
        (Nat.le_trans (size_behindBody_le _ _) (size_bodyOf_le hcontent.bodyOf_eq)) hheaderSize
    have hlt := hleads.start_lt_prevEnd hs hsize
    -- The content lies between the header of the namespace and its end.
    have hopen := hheader.start_lt_prevEnd hs hheaderSize
    have hclose := hend.prevEnd_le ((hheader.trans hinside).in hs)
    exact ⟨hleads.trans hlater, .consMember rfl hs.prevEnd_le_start hlt
      (hlater.prevEnd_le (hleads.in hs)) hbodyLater, List.forall_mem_cons.2
      ⟨.scope (hbody.mono (Nat.le_of_lt hopen) hclose) hnested, hnestedLater⟩⟩
  | type _ _ _ found _ ih =>
    have hleads : LeadsTo _ _ := (yields_typeDeclaration? _ hs).leadsTo found
    have hin := hleads.in hs
    obtain ⟨hlater, hbody, hnested⟩ := ih hin (hspelled.of_leadsTo hleads)
    have hlt := hleads.start_lt_prevEnd hs (size_typeDeclaration?_lt found)
    obtain ⟨hspan, htype⟩ := isNested_of_typeDeclaration? hs hspelled found
    exact ⟨hleads.trans hlater, .consMember hspan hs.prevEnd_le_start hlt
      (hlater.prevEnd_le hin) hbody, List.forall_mem_cons.2 ⟨.type htype, hnested⟩⟩
  | item _ _ _ _ found _ ih =>
    have hleads : LeadsTo _ _ := (yields_skipItem hs).leadsTo found
    obtain ⟨hlater, hbody, hnested⟩ := ih (hleads.in hs) (hspelled.of_leadsTo hleads)
    exact ⟨hleads.trans hlater, hbody.mono (hleads.prevEnd_le hs) (Nat.le_refl _), hnested⟩

end Stream

/-! ### Files -/

namespace SourceTree

/-- **Spans are a properly nested tree.** In the file and in every namespace, the directives and
members lie inside the enclosing span; each list is increasing, and no two of them overlap. In a
type lie, one behind the other, its sections with their attributes in order, its name, and its base
entries. The text at the span of the name is the name, which may have an `@` before it, and the text
of a base entry is the one at its span without white space around it. -/
theorem parse_nests {path source : String} {tree : SourceTree}
    (h : parse path source = .ok tree) : tree.file.IsNested source.toList := by
  obtain ⟨tokens, b, htokens, hstands, hreads, hfile⟩ :=
    SourceFile.exists_reads_of_parse (file_of_parse h)
  have hin := Stream.In.start hstands
  have hspelled : Stream.SpelledIn source.toList ⟨tokens, 0⟩ :=
    (tiling_of_tokenize htokens).isSpelled
  obtain ⟨hleads, hbody, hnested⟩ := hreads.holdsBody hin hspelled
  rw [hfile]
  exact ⟨hbody.mono (Nat.le_refl _) (hleads.in hin).prevEnd.le_byteLength, hnested⟩

/-- A source with a file-scoped namespace that has a block inside, a semicolon behind the block,
attributes, a verbatim name, and entries with and without the arguments of a constructor. -/
def nestedSample : String :=
  "using A; namespace N; using B.C; namespace M { [X, Y(1)] [Z] class @new : D<E>(1), F { } }; " ++
    "interface I { }"

/-- The span of the name takes in the `@`, that of the first entry leaves out the argument. -/
theorem parse_nests_nestedSample :
    ∃ tree, parse "N.cs" nestedSample = .ok tree ∧
      tree.types.map (·.span) = [⟨47, 88⟩, ⟨92, 107⟩] ∧
      tree.types.map (·.partSpans) =
        [[⟨47, 56⟩, ⟨57, 60⟩, ⟨67, 71⟩, ⟨74, 78⟩, ⟨83, 84⟩], [⟨102, 103⟩]] ∧
      tree.file.IsNested nestedSample.toList := by
  have hspans : (fun tree ↦ (tree.types.map (·.span), tree.types.map (·.partSpans))) <$>
      parse "N.cs" nestedSample =
      .ok ([⟨47, 88⟩, ⟨92, 107⟩],
        [[⟨47, 56⟩, ⟨57, 60⟩, ⟨67, 71⟩, ⟨74, 78⟩, ⟨83, 84⟩], [⟨102, 103⟩]]) := by
    decide +kernel
  obtain ⟨tree, htree, hspans⟩ := Lexer.eq_ok_of_map_eq_ok hspans
  exact ⟨tree, htree, congrArg Prod.fst hspans, congrArg Prod.snd hspans, parse_nests htree⟩

end SourceTree

end DoubleDispatch
