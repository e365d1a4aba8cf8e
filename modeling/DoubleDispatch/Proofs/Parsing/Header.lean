import DoubleDispatch.Parsing.Header
import DoubleDispatch.Proofs.Parsing.Stream

/-!
# What the parsers of a header give

Where each parser leads that a type header is read with, and which faults it gives. None of them
can do more than that, but for the base list, which `DoubleDispatch.Proofs.Parsing.BaseList` treats.
-/

namespace DoubleDispatch

namespace Stream

variable {source : List Char}

/-! ### Attributes -/

theorem leadsTo_skipArguments? {s next : Stream} (hs : s.In source)
    (h : s.skipArguments? = some next) : s.LeadsTo next := by
  rcases skipArguments?_eq_some_iff.1 h with ⟨-, hskip⟩ | ⟨-, rfl⟩
  · exact leadsTo_skipGroup hs hskip
  · exact .refl

/-- Behind an attribute are tokens of the same source. -/
theorem leadsTo_attribute? {s : Stream} {a : Parsed Attribute} (hs : s.In source)
    (h : s.attribute? source = some a) : s.LeadsTo a.rest := by
  obtain ⟨name, next, hname, harguments, rfl⟩ := attribute?_eq_some_iff.1 h
  have hleads := (typeName?_spec hs hname).1
  exact hleads.trans (leadsTo_skipArguments? (hleads.in hs) harguments)

/-- Attributes in a row lead on to tokens of the source, by induction on the list that is read. -/
theorem leadsTo_attributes? {s : Stream} {as : Parsed (List Attribute)} (hs : s.In source)
    (h : s.attributes? source = some as) : s.LeadsTo as.rest := by
  fun_induction attributes? source s generalizing as with
  | case1 => cases h; exact .refl
  | case2 => cases h
  | case3 => cases h
  | case4 s _ first hfirst _ _ later hlater ih =>
    have hleads := (leadsTo_attribute? hs hfirst).advance
    have hrest := ih (hleads.in hs) hlater
    cases h
    exact hleads.trans hrest
  | case5 s _ first hfirst => cases h; exact leadsTo_attribute? hs hfirst

/-- A target takes two tokens or none. -/
theorem leadsTo_target (s : Stream) : s.LeadsTo s.target.rest := by
  rw [target]
  split
  · exact (LeadsTo.step s).advance
  · exact .refl

/-- An attribute section leads on past its closing bracket. -/
theorem leadsTo_section? {s : Stream} {a : Parsed AttributeSection} (hs : s.In source)
    (h : s.section? source = some a) : s.LeadsTo a.rest := by
  obtain ⟨attributes, -, hattributes, -, -, rfl⟩ := section?_eq_some_iff.1 h
  have hleads := (LeadsTo.step s).trans (leadsTo_target s.advance)
  exact (hleads.trans (leadsTo_attributes? (hleads.in hs) hattributes)).advance

/-- All sections before a declaration lead on to what they stand before. -/
theorem leadsTo_sections? {s : Stream} {as : Parsed (List AttributeSection)} (hs : s.In source)
    (h : s.sections? source = some as) : s.LeadsTo as.rest := by
  fun_induction sections? source s generalizing as with
  | case1 => cases h
  | case2 => cases h
  | case3 s _ first hfirst _ later hlater ih =>
    have hleads := leadsTo_section? hs hfirst
    have hrest := ih (hleads.in hs) hlater
    cases h
    exact hleads.trans hrest
  | case4 => cases h; exact .refl

/-! ### Keywords, type parameters and constraints -/

/-- Modifiers are passed one by one. -/
theorem leadsTo_readModifiers (prevEnd : Nat) (ts : List Token) :
    LeadsTo ⟨ts, prevEnd⟩ (readModifiers prevEnd ts).rest := by
  fun_induction readModifiers prevEnd ts with
  | case1 prevEnd word span ts _ _ ih =>
    have hword : LeadsTo ⟨⟨.identifier word, span⟩ :: ts, prevEnd⟩ ⟨ts, span.stop⟩ := .step _
    exact hword.trans ih
  | case2 => exact .refl
  | case3 => exact .refl

/-- A keyword takes one token, or two behind `record`. -/
theorem leadsTo_typeKeyword? {s : Stream} {kind : Parsed TypeKind}
    (h : s.typeKeyword? = some kind) : s.LeadsTo kind.rest := by
  obtain ⟨_, -, -, hrest | ⟨hrest, -⟩⟩ := exists_word_of_typeKeyword? h
  · rw [hrest]
    exact .step s
  · rw [hrest]
    exact (LeadsTo.step s).advance

/-- **The start of a header** leads on to the name of the type. -/
theorem leadsTo_headerStart? {s : Stream} {header : Parsed HeaderStart} (hs : s.In source)
    (h : s.headerStart? source = some header) : s.LeadsTo header.rest := by
  obtain ⟨sections, kind, hsections, hkind, rfl⟩ := headerStart?_eq_some_iff.1 h
  exact ((leadsTo_sections? hs hsections).trans (leadsTo_readModifiers _ _)).trans
    (leadsTo_typeKeyword? hkind)

section Equations

variable {s : Stream}

/-- A modifier is taken, and the others behind it. -/
theorem readModifiers_cons {word : String} (hkind : s.kind = .identifier word)
    (hmem : word ∈ modifierWords) :
    readModifiers s.prevEnd s.ahead =
      ⟨word :: (readModifiers s.advance.prevEnd s.advance.ahead).value,
        (readModifiers s.advance.prevEnd s.advance.ahead).rest⟩ := by
  obtain ⟨_ | ⟨⟨kind, span⟩, ts⟩, prevEnd⟩ := s
  · cases hkind
  · obtain rfl : kind = _ := hkind
    rw [advance_cons (by nofun), readModifiers, if_pos (List.contains_iff_mem.2 hmem)]

/-- At a word that is no modifier, none is taken. -/
theorem readModifiers_nil {word : String} (hkind : s.kind = .identifier word)
    (hmem : word ∉ modifierWords) : readModifiers s.prevEnd s.ahead = ⟨[], s⟩ := by
  obtain ⟨_ | ⟨⟨kind, span⟩, ts⟩, prevEnd⟩ := s
  · cases hkind
  · obtain rfl : kind = _ := hkind
    rw [readModifiers, if_neg (fun h ↦ hmem (List.contains_iff_mem.1 h))]

/-- An identifier takes the place of one that was read last, as of a word for variance. -/
theorem typeParameters_identifier {last : Option String} {name : String}
    (hkind : s.kind = .identifier name) :
    typeParameters last s = typeParameters (some name) s.advance := by
  rw [typeParameters.eq_def last s, dif_neg (by rw [hkind]; nofun)]
  simp only [hkind]

/-- Attributes of a type parameter are skipped, and what was read last stays. -/
theorem typeParameters_openBracket {last : Option String} {next : Stream}
    (hkind : s.kind = .openBracket) (hskip : s.skipGroup = .ok next) :
    typeParameters last s = typeParameters last next := by
  rw [typeParameters.eq_def last s, dif_neg (by rw [hkind]; nofun)]
  simp only [hkind]
  split
  next e he =>
    rw [hskip] at he
    cases he
  next next' hnext =>
    rw [hskip] at hnext
    cases hnext
    rfl

/-- Before a comma, the identifier that was read last is a type parameter. -/
theorem typeParameters_comma {name : String} {later : Parsed (List String)}
    (hkind : s.kind = .comma) (hlater : typeParameters none s.advance = .ok later) :
    typeParameters (some name) s = .ok ⟨name :: later.value, later.rest⟩ := by
  rw [typeParameters, dif_neg (by rw [hkind]; decide)]
  simp only [hkind, hlater]

/-- The closing angle bracket makes the last identifier the last type parameter. -/
theorem typeParameters_greater {name : String} (hkind : s.kind = .greater) :
    typeParameters (some name) s = .ok ⟨[name], s.advance⟩ := by
  rw [typeParameters, dif_neg (by rw [hkind]; decide)]
  simp only [hkind]

/-- Constraint clauses end at the body, and they end with the file. -/
theorem skipConstraints_stop
    (hkind : s.kind = .endOfFile ∨ s.kind = .openBrace ∨ s.kind = .semicolon) :
    s.skipConstraints = .ok s := by
  rw [skipConstraints]
  split
  · rfl
  next hend =>
    rcases hkind with hkind | hkind | hkind
    · exact absurd hkind hend
    · simp only [hkind]
    · simp only [hkind]

theorem skipConstraints_group {next : Stream} (hkind : s.kind = .openParen ∨ s.kind = .openBracket)
    (hskip : s.skipGroup = .ok next) : s.skipConstraints = next.skipConstraints := by
  have hend : s.kind ≠ .endOfFile := by rcases hkind with hkind | hkind <;> (rw [hkind]; nofun)
  rw [skipConstraints.eq_def s, dif_neg hend]
  rcases hkind with hkind | hkind <;>
  · simp only [hkind]
    split
    next e he =>
      rw [hskip] at he
      cases he
    next next' hnext =>
      rw [hskip] at hnext
      cases hnext
      rfl

/-- A token that no group opens with and at which no clause ends. -/
def IsClausePart (kind : TokenKind) : Prop :=
  kind ≠ .endOfFile ∧ kind ≠ .openBrace ∧ kind ≠ .semicolon ∧ kind ≠ .openParen ∧
    kind ≠ .openBracket

/-- Any other token of a clause is passed by itself. -/
theorem skipConstraints_part (hkind : IsClausePart s.kind) :
    s.skipConstraints = s.advance.skipConstraints := by
  obtain ⟨hend, hbrace, hsemicolon, hparen, hbracket⟩ := hkind
  rw [skipConstraints.eq_def s, dif_neg hend]
  split
  next h => exact absurd h hbrace
  next h => exact absurd h hsemicolon
  next h => exact absurd h hparen
  next h => exact absurd h hbracket
  next => rfl

end Equations

/-- A list of type parameters leads on, or gives a fault with the span of a token of the source. -/
theorem yields_typeParameters {last : Option String} {s : Stream} (hs : s.In source) :
    Yields source s False (·.rest) (typeParameters last s) := by
  fun_induction typeParameters last s with
  | case1 => exact .unexpected hs _
  | case2 last s _ _ _ _ ih => exact (ih hs.advance).of_leadsTo (.step s)
  | case3 last s _ _ _ e he =>
    have hyields := yields_skipGroup hs
    rw [he] at hyields
    exact hyields.error
  | case4 last s _ _ _ next hnext _ ih =>
    have hleads := leadsTo_skipGroup hs hnext
    exact (ih (hleads.in hs)).of_leadsTo hleads
  | case5 => exact .unexpected hs _
  | case6 s _ _ _ _ e he ih =>
    have hyields := ih hs.advance
    rw [he] at hyields
    exact hyields.error
  | case7 s _ _ _ _ later hlater ih =>
    have hyields := ih hs.advance
    rw [hlater] at hyields
    exact (LeadsTo.step s).trans hyields
  | case8 => exact .unexpected hs _
  | case9 s => exact LeadsTo.step s
  | case10 => exact .unexpected hs _

theorem yields_typeParameterList {s : Stream} (hs : s.In source) :
    Yields source s False (·.rest) s.typeParameterList := by
  rw [typeParameterList]
  split
  · exact (yields_typeParameters hs.advance).of_leadsTo (.step s)
  · exact LeadsTo.refl

theorem yields_skipParameters {s : Stream} (hs : s.In source) :
    Yields source s False id s.skipParameters := by
  rw [skipParameters]
  split
  · exact yields_skipGroup hs
  · exact LeadsTo.refl

/-- Constraint clauses lead on, or a group in them is faulty. -/
theorem yields_skipConstraints {s : Stream} (hs : s.In source) :
    Yields source s False id s.skipConstraints := by
  have hgroup {s : Stream} {e : ParseError} (hs : s.In source) (he : s.skipGroup = .error e) :
      Yields source s False id (.error e : Except ParseError Stream) := by
    rw [← he]
    exact yields_skipGroup hs
  fun_induction skipConstraints s with
  | case1 => exact LeadsTo.refl
  | case2 => exact LeadsTo.refl
  | case3 => exact LeadsTo.refl
  | case4 s _ _ _ e he => exact hgroup hs he
  | case5 s _ _ _ next hnext _ ih =>
    have hleads := leadsTo_skipGroup hs hnext
    exact (ih (hleads.in hs)).of_leadsTo hleads
  | case6 s _ _ _ e he => exact hgroup hs he
  | case7 s _ _ _ next hnext _ ih =>
    have hleads := leadsTo_skipGroup hs hnext
    exact (ih (hleads.in hs)).of_leadsTo hleads
  | case8 s _ _ _ _ _ _ ih => exact (ih hs.advance).of_leadsTo (.step s)

theorem yields_constraints {s : Stream} (hs : s.In source) :
    Yields source s False id s.constraints := by
  rw [constraints]
  split
  · exact (yields_skipConstraints hs.advance).of_leadsTo (.step s)
  · exact LeadsTo.refl

/-- Where a body should start, there is one that leads on or else a fault. -/
theorem yields_typeBody (name : String) {s : Stream} (hs : s.In source) :
    Yields source s False id (s.typeBody name) := by
  rw [typeBody]
  split
  · exact (yields_skipGroup hs).map fun next _ ↦ .eat next _
  · exact LeadsTo.step s
  · exact .unexpected hs _

end Stream

end DoubleDispatch
