import DoubleDispatch.Proofs.Parsing.Passage
import DoubleDispatch.Proofs.Parsing.Written

/-!
# Headers as they are written

Attribute sections, modifiers and keyword before the name of a type. What is written is balanced
(`WrittenHeader.IsWellFormed.balanced`), and its sections are read all or not at all: all, as they
are written, if each of them is readable (`Stream.sections?_of_header`), and else none
(`Stream.sections?_eq_none_of_header`).
-/

namespace DoubleDispatch

/-! ### Headers as they are written -/

/-- The words that declare a type: one of four, or `record` with or without a further word. -/
inductive IsKeyword : List Token → Prop
  | word {t : Token} {word : String} (ht : t.kind = .identifier word)
      (hword : word ∈ ["class", "struct", "interface", "enum"]) :
    IsKeyword [t]
  | record {t : Token} (ht : t.kind = .identifier "record") : IsKeyword [t]
  | recordOf {t u : Token} {word : String} (ht : t.kind = .identifier "record")
      (hu : u.kind = .identifier word) (hword : word ∈ ["struct", "class"]) :
    IsKeyword [t, u]

/-- What is written before the name of a type: sections, modifiers and keyword. -/
structure WrittenHeader where
  sections : List WrittenSection
  modifiers : List Token
  keyword : List Token
deriving Repr

namespace WrittenHeader

/-- The tokens before the name. -/
def tokens (w : WrittenHeader) : List Token :=
  Stream.tokensOfSections w.sections ++ (w.modifiers ++ w.keyword)

/-- The sections are well-formed, and modifiers and keyword are words with that meaning. -/
structure IsWellFormed (w : WrittenHeader) : Prop where
  sections : ∀ section' ∈ w.sections, section'.IsWellFormed
  modifiers : ∀ t ∈ w.modifiers, ∃ word ∈ Stream.modifierWords, t.kind = .identifier word
  keyword : IsKeyword w.keyword

end WrittenHeader

/-! ### Balance of what is written -/

/-- A type name is passed over without strays. -/
theorem IsTypePhrase.passage {phrase : TypePhrase} {tokens : List Token}
    (h : IsTypePhrase phrase tokens) : Passage [] tokens := by
  have hmark {kind : TokenKind} {t : Token} (ht : t.kind = kind) (hkind : kind.IsPlain) :
      Passage [] [t] := .plain (ht ▸ hkind) .nil
  have hword {t : Token} (ht : t.kind.isIdentifier = true) : Passage [] [t] := by
    obtain ⟨name, hname⟩ := Option.isSome_iff_exists.1 ht
    exact .plain (Stream.isPlain_of_name? hname) .nil
  have hgroup {opener : TokenKind} {group : List Token} (h : IsGroupIn opener group) :
      Passage [] group := by
    simpa using Passage.group h.isGroup .nil
  induction h with
  | simple h => exact hword h
  | generic h hless _ hgreater ih =>
    exact (hword h).append
      ((hmark hless (by decide)).append (ih.append (hmark hgreater (by decide))))
  | @qualified _ _ joint _ hjoint _ ihouter ihinner =>
    have hmiddle : Passage [] [joint] := by
      rcases hjoint with hjoint | hjoint
      · exact hmark hjoint (by decide)
      · exact hmark hjoint (by decide)
    exact ihouter.append (hmiddle.append ihinner)
  | named _ ih => exact ih
  | tuple h => exact hgroup h
  | array _ h ih => exact ih.append (hgroup h)
  | nullable _ h ih => exact ih.append (hmark h (by decide))
  | pointer _ h ih => exact ih.append (hmark h (by decide))
  | last _ ih => exact ih
  | more _ hcomma _ ihargument ihlater =>
    exact ihargument.append ((hmark hcomma (by decide)).append ihlater)

theorem WrittenAttribute.IsWellFormed.passage {a : WrittenAttribute} (h : a.IsWellFormed) :
    Passage [] a.tokens := by
  rw [WrittenAttribute.tokens]
  rcases h.arguments with hnone | hgroup
  · rw [hnone, List.append_nil]
    exact h.name.passage
  · exact h.name.passage.append (by simpa using Passage.group hgroup.isGroup .nil)

/-- **A section is a group in brackets.** -/
theorem WrittenSection.IsWellFormed.isGroupIn {w : WrittenSection} (h : w.IsWellFormed) :
    IsGroupIn .openBracket w.tokens := by
  have hlater {later : List (Token × WrittenAttribute)}
      (h : ∀ p ∈ later, p.1.kind = .comma ∧ p.2.IsWellFormed) :
      Passage [] (WrittenAttribute.tokensOfLater later) := by
    induction later with
    | nil => exact .nil
    | cons p later ih =>
      obtain ⟨⟨hcomma, hp⟩, hlater⟩ := List.forall_mem_cons.1 h
      exact .plain (by rw [hcomma]; decide) (hp.passage.append (ih hlater))
  have htarget : Passage [] (w.target.toList.flatMap fun t ↦ [t.1, t.2]) := by
    cases htarget : w.target with
    | none => exact .nil
    | some t =>
      obtain ⟨hword, hcolon⟩ := h.target t htarget
      obtain ⟨name, hname⟩ := Option.isSome_iff_exists.1 hword
      exact .plain (Stream.isPlain_of_name? hname) (.plain (by rw [hcolon]; decide) .nil)
  have hcomma : Passage [] w.comma.toList := by
    cases hcomma : w.comma with
    | none => exact .nil
    | some t => exact .plain (by rw [h.comma t hcomma]; decide) .nil
  have hcontent : Passage [] w.content :=
    htarget.append ((h.attributes w.first List.mem_cons_self).passage.append
      ((hlater h.behind_comma).append hcomma))
  refine ⟨.mk ?_ hcontent.balanced, w.opener, w.content ++ [w.closer], rfl, h.opener⟩
  rw [h.opener, h.closer]
  rfl

namespace WrittenHeader

variable {w : WrittenHeader}

/-- Modifiers and keyword are words. -/
theorem IsWellFormed.words (h : w.IsWellFormed) :
    ∀ t ∈ w.modifiers ++ w.keyword, t.kind.isIdentifier = true := by
  have hidentifier {t : Token} {word : String} (ht : t.kind = .identifier word) :
      t.kind.isIdentifier = true := by
    rw [ht]
    rfl
  rw [List.forall_mem_append]
  constructor
  · intro t ht
    obtain ⟨word, -, hword⟩ := h.modifiers t ht
    exact hidentifier hword
  · have hkeyword := h.keyword
    generalize w.keyword = keyword at hkeyword
    cases hkeyword with
    | word ht => simpa using hidentifier ht
    | record ht => simpa using hidentifier ht
    | recordOf ht hu => simpa using ⟨hidentifier ht, hidentifier hu⟩

theorem IsWellFormed.balanced (h : w.IsWellFormed) : Balanced (kindsOf w.tokens) := by
  have hsections {ws : List WrittenSection} (h : ∀ w ∈ ws, w.IsWellFormed) :
      Balanced (kindsOf (Stream.tokensOfSections ws)) := by
    induction ws with
    | nil => exact .nil
    | cons w ws ih =>
      obtain ⟨hw, hws⟩ := List.forall_mem_cons.1 h
      rw [Stream.tokensOfSections, List.flatMap_cons, kindsOf, List.map_append]
      exact hw.isGroupIn.isGroup.balanced.append (ih hws)
  rw [tokens, kindsOf, List.map_append]
  exact (hsections h.sections).append (Stream.passage_of_isIdentifier h.words).balanced

end WrittenHeader

namespace Stream

variable {source : List Char} {w : WrittenHeader}

/-! ### Reading a header as it is written -/

theorem readModifiers_words {modifiers : List Token}
    (h : ∀ t ∈ modifiers, ∃ word ∈ modifierWords, t.kind = .identifier word) {t : Token}
    (ht : ∃ word, word ∉ modifierWords ∧ t.kind = .identifier word) (ts : List Token)
    (prevEnd : Nat) :
    ∃ words stop, readModifiers prevEnd (modifiers ++ t :: ts) = ⟨words, ⟨t :: ts, stop⟩⟩ := by
  induction modifiers generalizing prevEnd with
  | nil =>
    obtain ⟨word, hword, hkind⟩ := ht
    exact ⟨[], prevEnd, readModifiers_nil (s := ⟨t :: ts, prevEnd⟩) hkind hword⟩
  | cons m modifiers ih =>
    obtain ⟨⟨word, hword, hkind⟩, hlater⟩ := List.forall_mem_cons.1 h
    obtain ⟨words, stop, hread⟩ := ih hlater m.span.stop
    refine ⟨word :: words, stop, ?_⟩
    have hcons := readModifiers_cons (s := ⟨m :: (modifiers ++ t :: ts), prevEnd⟩) hkind hword
    rw [advance_cons (by rw [hkind]; nofun)] at hcons
    rw [List.cons_append]
    refine hcons.trans ?_
    simp only [hread]

/-- A keyword before a name is read as one. -/
theorem exists_typeKeyword?_of_isKeyword {keyword : List Token} (h : IsKeyword keyword)
    {name : Token} (hname : name.kind.isIdentifier = true) (ts : List Token) (prevEnd : Nat) :
    ∃ kind, typeKeyword? ⟨keyword ++ name :: ts, prevEnd⟩ = some kind := by
  have hrecord {t u : Token} {word : String} (ht : t.kind = .identifier "record")
      (hu : u.kind = .identifier word) (hword : word ∈ ["struct", "class"]) (ts : List Token) :
      ∃ kind, typeKeyword? ⟨t :: u :: ts, prevEnd⟩ = some kind := by
    have hkind : kind ⟨t :: u :: ts, prevEnd⟩ = .identifier "record" := ht
    have hsecond : secondKind ⟨t :: u :: ts, prevEnd⟩ = .identifier word := hu
    rw [typeKeyword?, hkind, hsecond]
    rcases List.mem_pair.1 hword with rfl | rfl
    · exact ⟨_, rfl⟩
    · exact ⟨_, rfl⟩
  obtain ⟨n, hn⟩ : ∃ n, name.kind = .identifier n := by
    cases hkind : name.kind with
    | identifier n => exact ⟨n, rfl⟩
    | _ => rw [hkind] at hname; cases hname
  cases h with
  | @word t word ht hword =>
    have hkind : kind ⟨t :: name :: ts, prevEnd⟩ = .identifier word := ht
    show ∃ kind, typeKeyword? ⟨t :: name :: ts, prevEnd⟩ = some kind
    rw [typeKeyword?, hkind]
    simp only [List.mem_cons, List.not_mem_nil, or_false] at hword
    rcases hword with rfl | rfl | rfl | rfl
    · exact ⟨_, rfl⟩
    · exact ⟨_, rfl⟩
    · exact ⟨_, rfl⟩
    · exact ⟨_, rfl⟩
  | @record t ht =>
    by_cases hword : n ∈ ["struct", "class"]
    · exact hrecord ht hn hword ts
    · have hkind : kind ⟨t :: name :: ts, prevEnd⟩ = .identifier "record" := ht
      have hsecond : secondKind ⟨t :: name :: ts, prevEnd⟩ = .identifier n := hn
      obtain ⟨hstruct, hclass⟩ : n ≠ "struct" ∧ n ≠ "class" := by simpa using hword
      refine ⟨⟨.recordType, advance ⟨t :: name :: ts, prevEnd⟩⟩, ?_⟩
      simp [typeKeyword?, hkind, hsecond, TokenKind.name?]
  | recordOf ht hu hword => exact hrecord ht hu hword (name :: ts)

/-- A keyword starts with a word that is no modifier. -/
theorem exists_cons_of_isKeyword {keyword : List Token} (h : IsKeyword keyword) :
    ∃ first later, keyword = first :: later ∧
      ∃ word, first.kind = .identifier word ∧ word ∉ modifierWords := by
  have hrecord : "record" ∉ modifierWords := by decide
  cases h with
  | @word t word ht hword =>
    have hall : ∀ word ∈ ["class", "struct", "interface", "enum"], word ∉ modifierWords := by decide
    exact ⟨t, [], rfl, word, ht, hall word hword⟩
  | record ht => exact ⟨_, [], rfl, "record", ht, hrecord⟩
  | recordOf ht hu => exact ⟨_, [_], rfl, "record", ht, hrecord⟩

/-- Behind the sections comes the first word of the modifiers or of the keyword. -/
theorem exists_cons_behind_sections (h : w.IsWellFormed) (ts : List Token) :
    ∃ t tokens, w.modifiers ++ (w.keyword ++ ts) = t :: tokens ∧ t.kind ≠ .openBracket := by
  rcases hmodifiers : w.modifiers with - | ⟨t, modifiers⟩
  · obtain ⟨first, later, hkeyword, word, hword, -⟩ := exists_cons_of_isKeyword h.keyword
    refine ⟨first, later ++ ts, by rw [hkeyword]; rfl, ?_⟩
    rw [hword]
    nofun
  · obtain ⟨word, -, hkind⟩ := h.modifiers t (by rw [hmodifiers]; exact List.mem_cons_self)
    refine ⟨t, modifiers ++ (w.keyword ++ ts), rfl, ?_⟩
    rw [hkind]
    nofun

variable (source) in
/-- **Readable sections of a header are read** as they are written. -/
theorem sections?_of_header (h : w.IsWellFormed)
    (hreadable : ∀ section' ∈ w.sections, section'.isReadable = true) (ts : List Token)
    (prevEnd : Nat) :
    ∃ stop, sections? source ⟨w.tokens ++ ts, prevEnd⟩ =
      some ⟨w.sections.map (·.read source), ⟨w.modifiers ++ (w.keyword ++ ts), stop⟩⟩ := by
  obtain ⟨t, tokens, htokens, ht⟩ := exists_cons_behind_sections h ts
  rw [WrittenHeader.tokens, List.append_assoc, List.append_assoc, htokens]
  exact sections?_of_isReadable h.sections hreadable ht tokens prevEnd

/-- **If one of the sections is not readable, none is read.** -/
theorem sections?_eq_none_of_header (h : w.IsWellFormed)
    (hunreadable : ∃ section' ∈ w.sections, section'.isReadable = false) (ts : List Token)
    (prevEnd : Nat) : sections? source ⟨w.tokens ++ ts, prevEnd⟩ = none := by
  rw [WrittenHeader.tokens, List.append_assoc]
  exact sections?_eq_none h.sections hunreadable _ prevEnd

variable (source) in
/-- A header with readable sections is read as one. -/
theorem exists_headerStart?_of_isReadable (h : w.IsWellFormed)
    (hreadable : ∀ section' ∈ w.sections, section'.isReadable = true) {name : Token}
    (hname : name.kind.isIdentifier = true) (ts : List Token) (prevEnd : Nat) :
    ∃ header, headerStart? source ⟨w.tokens ++ name :: ts, prevEnd⟩ = some header := by
  obtain ⟨first, later, hkeyword, word, hword, hmodifier⟩ := exists_cons_of_isKeyword h.keyword
  obtain ⟨stop, hsections⟩ := sections?_of_header source h hreadable (name :: ts) prevEnd
  obtain ⟨words, stop', hmodifiers⟩ := readModifiers_words h.modifiers ⟨word, hmodifier, hword⟩
    (later ++ name :: ts) stop
  obtain ⟨kind, hkind⟩ := exists_typeKeyword?_of_isKeyword h.keyword hname ts stop'
  rw [← List.cons_append, ← hkeyword] at hmodifiers
  simp only [headerStart?, hsections, hmodifiers, hkind]
  exact ⟨_, rfl⟩

end Stream

end DoubleDispatch
