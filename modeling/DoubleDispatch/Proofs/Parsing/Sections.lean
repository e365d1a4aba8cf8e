import DoubleDispatch.Proofs.Parsing.Items
import DoubleDispatch.Proofs.Parsing.WrittenHeader
import Mathlib.Data.List.DropRight

/-!
# Attribute sections before a header

Which attributes a declaration has, for any sections that are written directly before its header.
The parser of a body comes to the first of them, because what it takes before ends with a semicolon,
a brace or a whole group, and none of these reaches into the sections
(`Stream.StandsBefore.behind_item`). There it reads all sections or none; if it reads none, it skips
one and tries again. So a declaration has the sections behind the last one that is not readable
(`SourceTree.attributes_of_written`).
-/

namespace DoubleDispatch

/-! ### Where tokens are taken -/

/-- Between two tokens that were passed over there is a cut, or they are in one group. A group that
reaches into balanced tokens would end in them, so before balanced tokens there is a cut. -/
theorem Passage.exists_behind {strays tokens front inside later : List Token}
    (h : Passage strays tokens) (htokens : tokens = front ++ inside)
    (hbalanced : Balanced (kindsOf (inside ++ later))) : ∃ strays', Passage strays' inside := by
  induction h generalizing front with
  | nil =>
    obtain ⟨-, rfl⟩ := List.append_eq_nil_iff.1 htokens.symm
    exact ⟨[], .nil⟩
  | plain hplain h ih =>
    rcases List.cons_eq_append_iff.1 htokens with ⟨rfl, rfl⟩ | ⟨front', rfl, hrest⟩
    · exact ⟨_, .plain hplain h⟩
    · exact ih hrest
  | stray hstray h ih =>
    rcases List.cons_eq_append_iff.1 htokens with ⟨rfl, rfl⟩ | ⟨front', rfl, hrest⟩
    · exact ⟨_, .stray hstray h⟩
    · exact ih hrest
  | @group strays group behind hgroup h ih =>
    rcases List.append_eq_append_iff.1 htokens with ⟨front', rfl, hrest⟩ | ⟨inner, rfl, rfl⟩
    · exact ih hrest
    · by_cases hfront : front = []
      · rw [hfront] at hgroup
        exact ⟨_, .group hgroup h⟩
      by_cases hinner : inner = []
      · rw [hinner]
        exact ⟨_, h⟩
      · rw [List.append_assoc] at hbalanced
        exact absurd hbalanced (hgroup.not_straddles hfront hinner)

namespace Stream

variable {source : List Char} {s t : Stream} {w : WrittenHeader}

/-- The tokens behind a passage are among those before it. -/
theorem Passes.subset {strays : List Token} (h : s.Passes t strays) : t.ahead ⊆ s.ahead := by
  obtain ⟨taken, hahead, -⟩ := h
  rw [hahead]
  exact List.subset_append_right _ _

/-- What is read of a type: the sections before it, and its name behind them and some words. -/
theorem exists_name_of_typeDeclaration? {ordinal : Nat} {d : Parsed TypeDeclaration}
    (h : s.typeDeclaration? source ordinal = .ok (some d)) :
    ∃ sections words name behind, s.sections? source = some sections ∧
      sections.value = d.value.sections ∧ sections.rest.ahead = words ++ name :: behind ∧
      (∀ word ∈ words, word.kind.isIdentifier = true) ∧
      name.kind = .identifier d.value.name ∧ name.span = d.value.nameSpan := by
  obtain ⟨header, hheader, hd⟩ := exists_headerStart?_of_typeDeclaration? h
  obtain ⟨sections, hsections, hvalue, words, hahead, hwords⟩ :=
    exists_sections?_of_headerStart? hheader
  obtain ⟨word, _, _, _, _, _, hword, -, -, -, -, -, rfl⟩ := declarator_eq_ok_iff.1 hd
  obtain ⟨name, hname, hkind, hspan⟩ := exists_ahead_eq (kind_ne_endOfFile_of_name? hword)
  exact ⟨sections, words, name, header.rest.advance.ahead, hsections, hvalue.symm,
    by rw [hahead, ← hname], hwords, hkind.trans (eq_identifier_of_name? hword), hspan⟩

/-- The name of a type that is read is one of the tokens ahead. -/
theorem Reads.exists_identifier {braced : Bool} {ordinal : Nat} {b : Body}
    (h : Reads source braced ordinal s b) :
    ∀ d ∈ typesOf b.members, ∃ t ∈ s.ahead, t.kind = .identifier d.name ∧ t.span = d.nameSpan := by
  -- What stands in a body that starts further on stands ahead.
  have hmono {s u : Stream} {types : List TypeDeclaration} (hsu : ∃ strays, s.Passes u strays)
      (h : ∀ d ∈ types, ∃ t ∈ u.ahead, t.kind = .identifier d.name ∧ t.span = d.nameSpan) :
      ∀ d ∈ types, ∃ t ∈ s.ahead, t.kind = .identifier d.name ∧ t.span = d.nameSpan := by
    obtain ⟨strays, hpasses⟩ := hsu
    intro d hd
    obtain ⟨t, ht, hname⟩ := h d hd
    exact ⟨t, hpasses.subset ht, hname⟩
  induction h with
  | done => simp [typesOf]
  | usingDirective _ found _ ih => exact hmono (takesItem_using found).passes ih
  | scope _ _ word found hcontent hlater ihcontent ihlater =>
    have hheader := (takesItem_namespaceHeader word found).passes
    have hbehind := exists_passes_trans hheader
      (exists_passes_trans hcontent.exists_passes hcontent.exists_passes_behindBody)
    exact List.forall_mem_append.2 ⟨hmono hheader ihcontent, hmono hbehind ihlater⟩
  | type _ _ _ found _ ih =>
    refine List.forall_mem_cons.2 ⟨?_, hmono (takesItem_typeDeclaration? found).passes ih⟩
    obtain ⟨sections, words, name, behind, hsections, -, hahead, -, hname⟩ :=
      exists_name_of_typeDeclaration? found
    obtain ⟨groups, hgroups, -⟩ := exists_groups_of_sections? hsections
    exact ⟨name, by rw [hgroups, hahead]; simp, hname⟩
  | item goesOn _ _ _ found _ ih => exact hmono ⟨[], passes_skipItem goesOn.kind found⟩ ih

theorem Reads.exists_name {braced : Bool} {ordinal : Nat} {b : Body}
    (h : Reads source braced ordinal s b) :
    ∀ d ∈ typesOf b.members, ∃ t ∈ s.ahead, t.span = d.nameSpan := by
  intro d hd
  obtain ⟨t, ht, -, hspan⟩ := h.exists_identifier d hd
  exact ⟨t, ht, hspan⟩

end Stream

/-! ### The sections that a declaration has -/

/-- A declaration has the sections behind the last one of its header that is not readable. If all
are readable, more of them may stand before, with a bracket at their end. -/
def TypeDeclaration.HasSections (source : List Char) (d : TypeDeclaration) (before : List Token)
    (w : WrittenHeader) : Prop :=
  ∃ extra, d.sections =
      extra ++ (w.sections.rtakeWhile (·.isReadable)).map (·.read source) ∧
    (extra = [] ∨ (∀ section' ∈ w.sections, section'.isReadable = true) ∧
      ∃ last, [last] <:+ before ∧ last.kind = .closeBracket)

theorem TypeDeclaration.HasSections.of_isSuffix {source : List Char} {d : TypeDeclaration}
    {before before' : List Token} {w : WrittenHeader} (h : d.HasSections source before' w)
    (hsuffix : before' <:+ before) : d.HasSections source before w := by
  obtain ⟨extra, hsections, hextra⟩ := h
  refine ⟨extra, hsections, hextra.imp_right fun ⟨hreadable, last, hlast, hkind⟩ ↦ ?_⟩
  exact ⟨hreadable, last, hlast.trans hsuffix, hkind⟩

/-- Before a section that is not readable, no other one counts. -/
theorem rtakeWhile_cons_of_exists {α : Type} {p : α → Bool} (first : α) {later : List α}
    (h : ∃ a ∈ first :: later, p a = false) :
    (first :: later).rtakeWhile p = later.rtakeWhile p := by
  obtain ⟨a, ha, hp⟩ := h
  rw [List.rtakeWhile, List.rtakeWhile, List.reverse_cons, List.takeWhile_append]
  split
  next hall =>
    have hlater : ∀ b ∈ later, p b = true := by
      have hprefix := List.IsPrefix.eq_of_length (List.takeWhile_prefix (l := later.reverse) p) hall
      simpa using List.takeWhile_eq_self_iff.1 hprefix
    have hfirst : p first = false := by
      rcases List.mem_cons.1 ha with rfl | ha
      · exact hp
      · rw [hlater a ha] at hp
        cases hp
    have hprefix := List.IsPrefix.eq_of_length (List.takeWhile_prefix (l := later.reverse) p) hall
    rw [List.takeWhile_cons_of_neg (by simp [hfirst]), List.append_nil, hprefix]
  next => rfl

/-- A section that is not readable takes those before it with it. -/
theorem TypeDeclaration.HasSections.of_later {source : List Char} {d : TypeDeclaration}
    {w : WrittenHeader} {first : WrittenSection} {later : List WrittenSection}
    (h : d.HasSections source [] { w with sections := later })
    (hsections : w.sections = first :: later)
    (hunreadable : ∃ section' ∈ w.sections, section'.isReadable = false) :
    d.HasSections source [] w := by
  obtain ⟨extra, hd, hextra⟩ := h
  obtain rfl : extra = [] := hextra.resolve_right fun ⟨_, last, hlast, _⟩ ↦ by simp at hlast
  rw [hsections] at hunreadable
  refine ⟨[], ?_, .inl rfl⟩
  rw [hsections, rtakeWhile_cons_of_exists first hunreadable]
  exact hd

namespace Stream

variable {source : List Char} {s t : Stream} {w : WrittenHeader} {before behind : List Token}
  {name : Token}

/-- A stream stands before a header: some tokens, the header and the name lie ahead. If there are
tokens before the header, it starts with a section. -/
structure StandsBefore (s : Stream) (before : List Token) (w : WrittenHeader) (name : Token)
    (behind : List Token) : Prop where
  ahead : s.ahead = before ++ (w.tokens ++ name :: behind)
  distinct : (s.ahead.map (·.span)).Nodup
  apart : before = [] ∨ w.sections ≠ []
  wellFormed : w.IsWellFormed
  isName : name.kind.isIdentifier = true

namespace StandsBefore

/-- What is taken before the name is a part of what stands before it. -/
theorem exists_inner (h : s.StandsBefore before w name behind) {taken rest : List Token}
    (hahead : s.ahead = taken ++ rest) (hname : ∃ t ∈ rest, t.span = name.span) :
    ∃ inner, before ++ w.tokens = taken ++ inner ∧ rest = inner ++ name :: behind := by
  have hall : taken ++ rest = (before ++ w.tokens) ++ name :: behind := by
    rw [← hahead, h.ahead, List.append_assoc]
  rcases List.append_eq_append_iff.1 hall with ⟨inner, hinner, hrest⟩ | ⟨inner, rfl, hrest⟩
  · exact ⟨inner, hinner, hrest⟩
  · rcases List.cons_eq_append_iff.1 hrest with ⟨rfl, rfl⟩ | ⟨inner, rfl, -⟩
    · exact ⟨[], by simp, by simp⟩
    · -- The name would stand at two places.
      obtain ⟨t, ht, hspan⟩ := hname
      have hdistinct := h.distinct
      rw [hahead, List.map_append] at hdistinct
      have hdifferent := (List.nodup_append.1 hdistinct).2.2 name.span
        (List.mem_map_of_mem (by simp)) t.span (List.mem_map_of_mem ht)
      exact absurd hspan.symm hdifferent

theorem distinct_of_eq_append (h : s.StandsBefore before w name behind) {taken rest : List Token}
    (hahead : s.ahead = taken ++ rest) : (rest.map (·.span)).Nodup := by
  have hdistinct := h.distinct
  rw [hahead, List.map_append] at hdistinct
  exact (List.nodup_append.1 hdistinct).2.1

/-- **No item reaches into a header**, whose name is still ahead behind the item. -/
theorem behind_item (h : s.StandsBefore before w name behind) (hitem : TakesItem s t)
    (hname : ∃ u ∈ t.ahead, u.span = name.span) :
    ∃ before', t.StandsBefore before' w name behind ∧ before' <:+ before := by
  obtain ⟨taken, strays, hahead, hpassage, front, last, rfl, hlast⟩ := hitem
  obtain ⟨inner, hinner, hrest⟩ := h.exists_inner hahead hname
  have hdistinct := h.distinct_of_eq_append hahead
  rcases List.append_eq_append_iff.1 hinner with ⟨inside, htaken, hheader⟩ | ⟨before', hbefore, rfl⟩
  · by_cases hinside : inside = []
    · subst hinside
      exact ⟨[], ⟨by rw [hrest, hheader]; simp, hdistinct, .inl rfl, h.wellFormed, h.isName⟩,
        List.nil_suffix⟩
    · -- The last token taken is one of the header, and none of these ends an item.
      obtain ⟨strays', hpassage⟩ :=
        hpassage.exists_behind htaken (hheader ▸ h.wellFormed.balanced)
      obtain ⟨front', last', rfl, hkind⟩ := hpassage.exists_last
        (List.forall_mem_map.2 fun _ hmem ↦ (h.wellFormed.sections _ hmem).isGroupIn)
        h.wellFormed.words hinside hheader.symm
      rw [← List.append_assoc] at htaken
      obtain ⟨-, hsame⟩ := List.append_inj' htaken rfl
      obtain rfl : last = last' := by simpa using hsame
      rcases hkind with hkind | hkind
      · rw [hkind] at hlast
        rcases hlast with hlast | hlast | hlast <;> cases hlast
      · rcases hlast with hlast | hlast | hlast <;> (rw [hlast] at hkind; cases hkind)
  · refine ⟨before', ⟨by rw [hrest, List.append_assoc], hdistinct, ?_, h.wellFormed, h.isName⟩,
      by rw [hbefore]; exact List.suffix_append _ _⟩
    exact .inr (h.apart.resolve_left (by rw [hbefore]; simp))

theorem eq_of_nil (h : s.StandsBefore [] w name behind) :
    s = ⟨w.tokens ++ name :: behind, s.prevEnd⟩ := by
  rw [← List.nil_append (w.tokens ++ _), ← h.ahead]

/-- Where no declaration is found at the start of a header, one of its sections is not readable. -/
theorem exists_unreadable (h : s.StandsBefore [] w name behind)
    (hnone : s.headerStart? source = none) :
    ∃ section' ∈ w.sections, section'.isReadable = false := by
  by_contra hreadable
  obtain ⟨header, hheader⟩ := exists_headerStart?_of_isReadable source h.wellFormed
    (by simpa using hreadable) h.isName behind s.prevEnd
  rw [← h.eq_of_nil, hnone] at hheader
  cases hheader

/-- The first section of a header is skipped as a whole. -/
theorem behind_section (h : s.StandsBefore [] w name behind) {first : WrittenSection}
    {later : List WrittenSection} (hsections : w.sections = first :: later)
    (hkind : s.kind ≠ .endOfFile) (hskip : s.skipItem = .ok t)
    (hname : ∃ u ∈ t.ahead, u.span = name.span) :
    t.StandsBefore [] { w with sections := later } name behind := by
  obtain ⟨taken, hahead, htaken⟩ := exists_taken_of_skipItem hkind hskip
  obtain ⟨inner, hinner, hrest⟩ := h.exists_inner hahead hname
  have hwellFormed := h.wellFormed.sections
  rw [hsections] at hwellFormed
  obtain ⟨hfirst, hlater⟩ := List.forall_mem_cons.1 hwellFormed
  have hheader : w.tokens = first.tokens ++ { w with sections := later }.tokens := by
    simp [WrittenHeader.tokens, hsections, tokensOfSections]
  rw [List.nil_append, hheader] at hinner
  have hgroup : IsGroup taken := by
    rcases htaken with ⟨u, rfl, -, hplain⟩ | hgroup
    · obtain ⟨opener, inside, hopener, hopen⟩ := hfirst.isGroupIn.starts
      rw [hopener] at hinner
      obtain ⟨rfl, -⟩ := List.cons.inj hinner
      rw [hopen] at hplain
      exact absurd hplain (by decide)
    · exact hgroup.isGroup
  obtain ⟨rfl, rfl⟩ := hgroup.append_inj hfirst.isGroupIn.isGroup hinner.symm
  exact ⟨hrest, h.distinct_of_eq_append hahead, .inl rfl,
    ⟨hlater, h.wellFormed.modifiers, h.wellFormed.keyword⟩, h.isName⟩

/-- A token or a group before a header is taken without a step into the header. -/
theorem behind_piece (h : s.StandsBefore before w name behind) (hbefore : before ≠ [])
    {taken : List Token} (hahead : s.ahead = taken ++ t.ahead)
    (htaken : (∃ u, taken = [u]) ∨ IsGroup taken) (hname : ∃ u ∈ t.ahead, u.span = name.span) :
    ∃ before', t.StandsBefore before' w name behind ∧ before = taken ++ before' := by
  obtain ⟨inner, hinner, hrest⟩ := h.exists_inner hahead hname
  obtain ⟨before', rfl, rfl⟩ :
      ∃ before', before = taken ++ before' ∧ inner = before' ++ w.tokens := by
    rcases List.append_eq_append_iff.1 hinner with ⟨inside, hsplit, hheader⟩ | hfound
    · by_cases hinside : inside = []
      · subst hinside
        exact ⟨[], by simpa using hsplit.symm, by simpa using hheader.symm⟩
      · -- A single token does not reach further, and a group would straddle the header.
        rcases htaken with ⟨u, rfl⟩ | hgroup
        · obtain ⟨u', front, rfl⟩ := List.exists_cons_of_ne_nil hbefore
          simp [hinside] at hsplit
        · rw [hsplit] at hgroup
          exact absurd (hheader ▸ h.wellFormed.balanced) (hgroup.not_straddles hbefore hinside)
    · exact hfound
  exact ⟨before', ⟨by rw [hrest, List.append_assoc], h.distinct_of_eq_append hahead,
    .inr (h.apart.resolve_left hbefore), h.wellFormed, h.isName⟩, rfl⟩

/-- **Sections that are read up to a header**, from some place before it on, are some more and those
of the header. -/
theorem exists_extra_of_sections? (h : s.StandsBefore before w name behind)
    (hbefore : before ≠ []) {sections : Parsed (List AttributeSection)}
    (hsections : s.sections? source = some sections) {words : List Token}
    (hrest : sections.rest.ahead = words ++ name :: behind)
    (hwords : ∀ word ∈ words, word.kind.isIdentifier = true) :
    ∃ extra stop own, sections.value = extra ++ own.value ∧
      sections? source ⟨w.tokens ++ name :: behind, stop⟩ = some own ∧
      ∃ last, [last] <:+ before ∧ last.kind = .closeBracket := by
  fun_induction sections? source s generalizing before sections with
  | case1 => cases hsections
  | case2 => cases hsections
  | case3 s hs first hfirst _ later hlater ih =>
    cases hsections
    obtain ⟨group, hahead, hgroup⟩ := exists_group_of_section? hs hfirst
    obtain ⟨groups, hgroups, -⟩ := exists_groups_of_sections? hlater
    obtain ⟨before', hbehind, rfl⟩ := h.behind_piece hbefore hahead (.inr hgroup.isGroup)
      ⟨name, by rw [hgroups, hrest]; simp, rfl⟩
    by_cases hnone : before' = []
    · subst hnone
      obtain ⟨front, last, rfl, hlast⟩ := hgroup.exists_last rfl
      exact ⟨[first.value], _, later, rfl, hbehind.eq_of_nil ▸ hlater, last,
        by simp, hlast⟩
    · obtain ⟨extra, stop, own, hvalue, hown, last, hlast, hkind⟩ :=
        ih hbehind hnone hlater hrest
      exact ⟨first.value :: extra, stop, own, by rw [hvalue]; rfl, hown, last,
        hlast.trans (List.suffix_append _ _), hkind⟩
  | case4 s hs =>
    cases hsections
    -- The sections of the header would be among the words.
    obtain ⟨inner, hinner, hnone⟩ := h.exists_inner hrest ⟨name, by simp, rfl⟩
    obtain rfl : inner = [] := by simpa using hnone
    obtain ⟨first, later, hfirst⟩ := List.exists_cons_of_ne_nil (h.apart.resolve_left hbefore)
    have hopener : first.opener ∈ words := by
      rw [← List.append_nil words, ← hinner]
      simp [WrittenHeader.tokens, hfirst, tokensOfSections, WrittenSection.tokens]
    have hkind : first.opener.kind = .openBracket :=
      (h.wellFormed.sections first (by rw [hfirst]; exact List.mem_cons_self)).opener
    have hword := hwords _ hopener
    rw [hkind] at hword
    cases hword

/-- **A declaration that is read up to a header** has its sections. -/
theorem hasSections (h : s.StandsBefore before w name behind) {ordinal : Nat}
    {d : Parsed TypeDeclaration} (hd : s.typeDeclaration? source ordinal = .ok (some d))
    (hname : d.value.nameSpan = name.span) : d.value.HasSections source before w := by
  obtain ⟨sections, words, name', later, hsections, hvalue, hrest, hwords, -, hspan⟩ :=
    exists_name_of_typeDeclaration? hd
  -- The name that is read is that of the header.
  obtain ⟨groups, hgroups, -⟩ := exists_groups_of_sections? hsections
  rw [hname] at hspan
  have hall : s.ahead = (groups.flatten ++ words) ++ name' :: later := by
    rw [hgroups, hrest, List.append_assoc]
  obtain ⟨inner, -, hbehind⟩ := h.exists_inner hall ⟨name', List.mem_cons_self, hspan⟩
  obtain rfl : inner = [] := by
    rcases List.cons_eq_append_iff.1 hbehind with ⟨rfl, -⟩ | ⟨inner, rfl, rfl⟩
    · rfl
    · have hdistinct := h.distinct_of_eq_append hall
      simp [hspan] at hdistinct
  obtain ⟨rfl, rfl⟩ := List.cons.inj hbehind
  -- Its sections are read behind those that stand before it.
  obtain ⟨extra, stop, own, hsplit, hown, hextra⟩ : ∃ extra stop own,
      sections.value = extra ++ own.value ∧
      sections? source ⟨w.tokens ++ name' :: later, stop⟩ = some own ∧
      (extra = [] ∨ ∃ last, [last] <:+ before ∧ last.kind = .closeBracket) := by
    by_cases hbefore : before = []
    · subst hbefore
      exact ⟨[], s.prevEnd, sections, rfl, h.eq_of_nil ▸ hsections, .inl rfl⟩
    · obtain ⟨extra, stop, own, hsplit, hown, hlast⟩ :=
        h.exists_extra_of_sections? hbefore hsections hrest hwords
      exact ⟨extra, stop, own, hsplit, hown, .inr hlast⟩
  have hreadable : ∀ section' ∈ w.sections, section'.isReadable = true := by
    by_contra hunreadable
    rw [sections?_eq_none_of_header h.wellFormed (by simpa using hunreadable)] at hown
    cases hown
  obtain ⟨stop', hread⟩ := sections?_of_header source h.wellFormed hreadable (name' :: later)
    stop
  obtain rfl := Option.some.inj (hread.symm.trans hown)
  refine ⟨extra, ?_, hextra.imp_right fun hlast ↦ ⟨hreadable, hlast⟩⟩
  rw [← hvalue, hsplit, List.rtakeWhile_eq_self_iff.2 hreadable]

end StandsBefore

/-- **The sections of every declaration that is read.** -/
theorem Reads.hasSections {braced : Bool} {ordinal : Nat} {b : Body}
    (h : Reads source braced ordinal s b) (hstands : s.StandsBefore before w name behind) :
    ∀ d ∈ typesOf b.members, d.nameSpan = name.span → d.HasSections source before w := by
  -- Behind an item the header is still ahead, with the name that is looked for.
  have hitem {s t : Stream} {types : List TypeDeclaration} {before : List Token}
      {w : WrittenHeader} (hitem : TakesItem s t) (hstands : s.StandsBefore before w name behind)
      (hnames : ∀ d ∈ types, ∃ u ∈ t.ahead, u.span = d.nameSpan)
      (ih : ∀ {before : List Token} {w : WrittenHeader}, t.StandsBefore before w name behind →
        ∀ d ∈ types, d.nameSpan = name.span → d.HasSections source before w) :
      ∀ d ∈ types, d.nameSpan = name.span → d.HasSections source before w := by
    intro d hd hname
    obtain ⟨before', hstands', hsuffix⟩ := hstands.behind_item hitem (hname ▸ hnames d hd)
    exact (ih hstands' d hd hname).of_isSuffix hsuffix
  induction h generalizing before w with
  | done => simp [typesOf]
  | usingDirective _ found hlater ih =>
    exact hitem (takesItem_using found) hstands hlater.exists_name ih
  | @scope _ _ _ header _ later _ _ word found hcontent hlater ihcontent ihlater =>
    have hheader := takesItem_namespaceHeader word found
    refine List.forall_mem_append.2 ⟨hitem hheader hstands hcontent.exists_name ihcontent, ?_⟩
    cases hscoped : header.value.2 with
    | true =>
      rw [hcontent.eq_of_fileScoped hscoped hlater]
      simp [typesOf]
    | false =>
      obtain ⟨strays, hpasses⟩ := exists_passes_trans hheader.passes hcontent.exists_passes
      exact hitem (takesItem_behindBody hscoped hpasses (hcontent.kind_rest_of_block hscoped))
        hstands hlater.exists_name ihlater
  | type _ _ _ found hlater ih =>
    refine List.forall_mem_cons.2 ⟨hstands.hasSections found, ?_⟩
    exact hitem (takesItem_typeDeclaration? found) hstands hlater.exists_name ih
  | item goesOn _ _ noType found hlater ih =>
    intro d hd hname
    have hahead := hname ▸ hlater.exists_name d hd
    by_cases hbefore : before = []
    · subst hbefore
      have hunreadable := hstands.exists_unreadable (headerStart?_eq_none noType)
      obtain ⟨first, later, hsections⟩ : ∃ first later, w.sections = first :: later := by
        obtain ⟨section', hmem, -⟩ := hunreadable
        exact List.exists_cons_of_ne_nil (List.ne_nil_of_mem hmem)
      exact (ih (hstands.behind_section hsections goesOn.kind found hahead) d hd hname).of_later
        hsections hunreadable
    · obtain ⟨taken, htaken, hpiece⟩ := exists_taken_of_skipItem goesOn.kind found
      obtain ⟨before', hstands', rfl⟩ := hstands.behind_piece hbefore htaken
        (hpiece.imp (fun ⟨u, hu, _⟩ ↦ ⟨u, hu⟩) (·.isGroup)) hahead
      exact (ih hstands' d hd hname).of_isSuffix (List.suffix_append _ _)

end Stream

/-- The attributes of the sections, in order. -/
def attributesOf (source : List Char) (sections : List WrittenSection) : List Attribute :=
  sections.flatMap fun section' ↦ section'.attributes.map (·.read source)

/-- No attribute of a section is lost exactly if all sections are readable. -/
theorem attributesOf_rtakeWhile_eq_iff (source : List Char) (sections : List WrittenSection) :
    attributesOf source (sections.rtakeWhile (·.isReadable)) = attributesOf source sections ↔
      ∀ section' ∈ sections, section'.isReadable = true := by
  rw [← List.rtakeWhile_eq_self_iff]
  refine ⟨fun h ↦ ?_, congrArg _⟩
  obtain ⟨lost, hlost⟩ := List.rtakeWhile_suffix (·.isReadable) sections
  have hall : attributesOf source sections =
      attributesOf source lost ++ attributesOf source (sections.rtakeWhile (·.isReadable)) := by
    conv_lhs => rw [← hlost]
    exact List.flatMap_append
  rw [h, List.self_eq_append_left, attributesOf, List.flatMap_eq_nil_iff] at hall
  -- Every section has a first attribute, so there is none before those that are read.
  obtain rfl : lost = [] := List.eq_nil_iff_forall_not_mem.2 fun section' hmem ↦ by
    simpa [WrittenSection.attributes] using hall section' hmem
  simpa using hlost

/-- **Sections before a header.** However a source goes on around a header with attribute sections,
if it is read, then the declaration has the sections behind the last one that is not readable, and
in particular the attributes of all of them exactly if all are readable. More sections may stand
before only if all are readable and what stands before ends with a bracket. -/
theorem SourceTree.attributes_of_written {path source : String} {tree : SourceTree}
    (h : SourceTree.parse path source = .ok tree) {before behind : List Token} {w : WrittenHeader}
    {name : Token} (htokens : tokenize source = .ok (before ++ (w.tokens ++ name :: behind)))
    (hheader : w.IsWellFormed) (hname : name.kind.isIdentifier = true)
    (hsections : w.sections ≠ []) :
    ∀ d ∈ tree.types, d.nameSpan = name.span →
      ∃ extra, d.sections =
          extra ++ (w.sections.rtakeWhile (·.isReadable)).map (·.read source.toList) ∧
        (extra = [] ∨ (∀ section' ∈ w.sections, section'.isReadable = true) ∧
          ∃ last, [last] <:+ before ∧ last.kind = .closeBracket) ∧
        (d.attributes = extra.flatMap (·.attributes) ++ attributesOf source.toList w.sections ↔
          ∀ section' ∈ w.sections, section'.isReadable = true) := by
  obtain ⟨tokens, b, htokens', hdivides, hreads, hfile⟩ :=
    SourceFile.exists_reads_of_parse (file_of_parse h)
  obtain rfl := Except.ok.inj (htokens'.symm.trans htokens)
  have hstands : Stream.StandsBefore ⟨before ++ (w.tokens ++ name :: behind), 0⟩ before w name
      behind := ⟨rfl, hdivides.nodup_spans, .inr hsections, hheader, hname⟩
  intro d hd hspan
  rw [SourceTree.types, hfile] at hd
  obtain ⟨extra, hd, hextra⟩ := hreads.hasSections hstands d hd hspan
  refine ⟨extra, hd, hextra, ?_⟩
  have hattributes : d.attributes = extra.flatMap (·.attributes) ++
      attributesOf source.toList (w.sections.rtakeWhile (·.isReadable)) := by
    rw [TypeDeclaration.attributes, hd, List.flatMap_append, List.flatMap_map]
    rfl
  rw [hattributes, List.append_cancel_left_eq]
  exact attributesOf_rtakeWhile_eq_iff _ _

/-- The header of `[VisitorNode] [A<int[]>] interface I {}`. -/
def arrayHeader : WrittenHeader where
  sections := [
    { opener := ⟨.openBracket, ⟨0, 1⟩⟩
      target := none
      first := ⟨[⟨.identifier "VisitorNode", ⟨1, 12⟩⟩], []⟩
      later := []
      comma := none
      closer := ⟨.closeBracket, ⟨12, 13⟩⟩ },
    { opener := ⟨.openBracket, ⟨14, 15⟩⟩
      target := none
      first := ⟨[⟨.identifier "A", ⟨15, 16⟩⟩, ⟨.less, ⟨16, 17⟩⟩, ⟨.identifier "int", ⟨17, 20⟩⟩,
        ⟨.openBracket, ⟨20, 21⟩⟩, ⟨.closeBracket, ⟨21, 22⟩⟩, ⟨.greater, ⟨22, 23⟩⟩], []⟩
      later := []
      comma := none
      closer := ⟨.closeBracket, ⟨23, 24⟩⟩ }]
  modifiers := []
  keyword := [⟨.identifier "interface", ⟨25, 34⟩⟩]

theorem arrayHeader_isWellFormed : arrayHeader.IsWellFormed where
  sections := by
    have hrank : IsGroupIn .openBracket
        [⟨.openBracket, ⟨20, 21⟩⟩, ⟨.closeBracket, ⟨21, 22⟩⟩] :=
      ⟨@IsGroup.mk _ _ [] rfl .nil, _, _, rfl, rfl⟩
    have harray : IsTypePhrase .name
        [⟨.identifier "A", ⟨15, 16⟩⟩, ⟨.less, ⟨16, 17⟩⟩, ⟨.identifier "int", ⟨17, 20⟩⟩,
          ⟨.openBracket, ⟨20, 21⟩⟩, ⟨.closeBracket, ⟨21, 22⟩⟩, ⟨.greater, ⟨22, 23⟩⟩] :=
      .generic rfl rfl (.last (.array (.named (.simple rfl)) hrank)) rfl
    refine List.forall_mem_cons.2 ⟨⟨rfl, by simp, ?_, by simp, by simp, rfl⟩,
      List.forall_mem_singleton.2 ⟨rfl, by simp, ?_, by simp, by simp, rfl⟩⟩
    · exact List.forall_mem_singleton.2 ⟨.simple rfl, .inl rfl⟩
    · exact List.forall_mem_singleton.2 ⟨harray, .inl rfl⟩
  modifiers := by simp [arrayHeader]
  keyword := .word rfl (by decide)

/-- Neither section is read, the readable one included. -/
theorem SourceTree.attributes_of_written_array :
    ∃ tree, SourceTree.parse "I.cs" "[VisitorNode] [A<int[]>] interface I {}" = .ok tree ∧
      ∀ d ∈ tree.types, d.nameSpan = ⟨35, 36⟩ → d.sections = [] := by
  obtain ⟨tree, htree⟩ : ∃ tree,
      SourceTree.parse "I.cs" "[VisitorNode] [A<int[]>] interface I {}" = .ok tree :=
    exists_eq_ok_of_isOk (by decide +kernel)
  have htokens : (tokenize "[VisitorNode] [A<int[]>] interface I {}").toOption =
      some ([] ++ (arrayHeader.tokens ++ ⟨.identifier "I", ⟨35, 36⟩⟩ :: [⟨.openBrace, ⟨37, 38⟩⟩,
        ⟨.closeBrace, ⟨38, 39⟩⟩, ⟨.endOfFile, ⟨39, 39⟩⟩])) := by
    decide +kernel
  refine ⟨tree, htree, fun d hd hspan ↦ ?_⟩
  obtain ⟨extra, hsections, hextra, -⟩ := SourceTree.attributes_of_written htree
    (eq_ok_of_toOption htokens) arrayHeader_isWellFormed rfl (by simp [arrayHeader]) d hd hspan
  obtain rfl : extra = [] := hextra.resolve_right fun ⟨_, last, hlast, _⟩ ↦ by simp at hlast
  rw [hsections]
  decide

/-- The declaration behind two well-formed sections has no attribute at all. -/
theorem SourceTree.attributes_lost_array :
    arrayHeader.IsWellFormed ∧
      (tokenize "[VisitorNode] [A<int[]>] interface I {}").toOption =
        some (arrayHeader.tokens ++ ⟨.identifier "I", ⟨35, 36⟩⟩ :: [⟨.openBrace, ⟨37, 38⟩⟩,
          ⟨.closeBrace, ⟨38, 39⟩⟩, ⟨.endOfFile, ⟨39, 39⟩⟩]) ∧
      (SourceTree.parse "I.cs" "[VisitorNode] [A<int[]>] interface I {}").toOption.map
        (·.types.map fun d ↦ (d.nameSpan, d.attributes)) = some [(⟨35, 36⟩, [])] :=
  ⟨arrayHeader_isWellFormed, by decide +kernel, by decide +kernel⟩

end DoubleDispatch
