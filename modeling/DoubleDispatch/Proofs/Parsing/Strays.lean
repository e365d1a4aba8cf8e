import DoubleDispatch.Proofs.Parsing
import DoubleDispatch.Proofs.Parsing.Derivation

/-!
# Delimiters of a source that is read

A parser checks delimiters where it skips groups and where a body ends, and steps over them in base
lists and constraint clauses. So a source that is read is balanced but for strays
(`SourceTree.parse_balanced_but_strays`), and every stray stands in the header of a declaration of
the file, behind the colon of the base list or the word `where`.
-/

namespace DoubleDispatch

/-- A mark with which a base list or a constraint clause starts. -/
def TokenKind.StartsClause (kind : TokenKind) : Prop := kind = .colon ∨ kind = .identifier "where"

/-- The tokens of the body of a type, which is a semicolon or starts with a brace. -/
structure IsTypeBody (tokens : List Token) : Prop where
  starts : ∃ t ∈ tokens.head?, t.kind = .openBrace ∨ t.kind = .semicolon
  balanced : Balanced (kindsOf tokens)

/-- A stray in the header of a declaration: it stands behind the name, in a base list or a
constraint clause, and before the body. -/
structure IsStrayOf (tokens : List Token) (d : TypeDeclaration) (t : Token) : Prop where
  stray : t.kind.IsStray
  stands : ∃ before name front mark inner later body behind,
    tokens = before ++ (name :: front ++ mark :: inner ++ t :: later) ++ body ++ behind ∧
      name.span = d.nameSpan ∧ mark.kind.StartsClause ∧ IsTypeBody body

/-- More tokens around do not matter. -/
theorem IsStrayOf.around {tokens : List Token} {d : TypeDeclaration} {t : Token}
    (h : IsStrayOf tokens d t) (front back : List Token) :
    IsStrayOf (front ++ tokens ++ back) d t where
  stray := h.stray
  stands := by
    obtain ⟨before, name, inside, mark, inner, later, body, behind, rfl, hstands⟩ := h.stands
    exact ⟨front ++ before, name, inside, mark, inner, later, body, behind ++ back, by simp,
      hstands⟩

namespace Stream

variable {source : List Char} {s : Stream}

/-! ### Clauses -/

/-- Any token but the end of the file and the start of a group in parentheses or brackets. -/
theorem exists_passes_advance (hend : s.kind ≠ .endOfFile) (hparen : s.kind ≠ .openParen)
    (hbracket : s.kind ≠ .openBracket) : ∃ strays, s.Passes s.advance strays := by
  obtain ⟨t, hahead, hkind, -⟩ := exists_ahead_eq hend
  by_cases hstray : t.kind.IsStray
  · exact ⟨[t], [t], hahead, .stray hstray .nil⟩
  · refine ⟨[], [t], hahead, .plain ?_ .nil⟩
    rw [hkind] at hstray ⊢
    revert hend hparen hbracket hstray
    cases s.kind with
    | openParen => exact fun _ h ↦ absurd rfl h
    | openBracket => exact fun _ _ h ↦ absurd rfl h
    | endOfFile => exact fun h ↦ absurd rfl h
    | openBrace => exact fun _ _ _ h ↦ absurd (.inr rfl) h
    | closeBrace => exact fun _ _ _ h ↦ absurd (.inl rfl) h
    | closeParen => exact fun _ _ _ h ↦ absurd (.inl rfl) h
    | closeBracket => exact fun _ _ _ h ↦ absurd (.inl rfl) h
    | _ => exact fun _ _ _ _ ↦ ⟨rfl, rfl, nofun⟩

/-- Two passages in a row, the strays of which need not be known. -/
theorem exists_passes_trans {t u : Stream} (hst : ∃ strays, s.Passes t strays)
    (htu : ∃ strays, t.Passes u strays) : ∃ strays, s.Passes u strays := by
  obtain ⟨strays, hst⟩ := hst
  obtain ⟨strays', htu⟩ := htu
  exact ⟨_, hst.trans htu⟩

theorem exists_passes_skipGroup {kind : TokenKind} {next : Stream} (hkind : s.kind = kind)
    (hopener : kind.closer?.isSome) (h : s.skipGroup = .ok next) :
    ∃ strays, s.Passes next strays :=
  ⟨[], passes_skipGroup (hkind ▸ hopener) h⟩

/-- An entry takes tokens that are balanced but for strays. -/
theorem exists_passes_readEntry {st : EntryState} {entry : Parsed EntryState}
    (h : readEntry st s = .ok entry) : ∃ strays, s.Passes entry.rest strays := by
  fun_induction readEntry st s with
  | case1 => cases h; exact ⟨[], .refl _⟩
  | case2 _ s _ _ hless ih =>
    exact exists_passes_trans ⟨[], passes_advance hless (by decide)⟩ (ih h)
  | case3 _ s _ _ hgreater ih =>
    exact exists_passes_trans ⟨[], passes_advance hgreater (by decide)⟩ (ih h)
  | case4 => cases h
  | case5 st s _ _ hparen next hnext _ textEnd ih =>
    exact exists_passes_trans (exists_passes_skipGroup hparen rfl hnext) (ih h)
  | case6 => cases h
  | case7 _ s _ _ hbracket next hnext _ ih =>
    exact exists_passes_trans (exists_passes_skipGroup hbracket rfl hnext) (ih h)
  | case8 => cases h; exact ⟨[], .refl _⟩
  | case9 _ s hend _ _ _ hparen hbracket _ ih =>
    exact exists_passes_trans (exists_passes_advance hend hparen hbracket) (ih h)

/-- A list of entries takes tokens that are balanced but for strays. -/
theorem exists_passes_baseEntries {bases : Parsed (List BaseEntry)}
    (h : baseEntries source s = .ok bases) : ∃ strays, s.Passes bases.rest strays := by
  fun_induction baseEntries source s generalizing bases with
  | case1 => cases h
  | case2 => cases h
  | case3 => cases h
  | case4 => cases h
  | case5 s entry hentry _ _ _ _ hcomma =>
    rename_i later hlater ih
    have hrest := exists_passes_trans ⟨[], passes_advance hcomma (by decide)⟩ (ih hlater)
    cases h
    exact exists_passes_trans (exists_passes_readEntry hentry) hrest
  | case6 s entry hentry => cases h; exact exists_passes_readEntry hentry

theorem exists_passes_skipConstraints {next : Stream} (h : s.skipConstraints = .ok next) :
    ∃ strays, s.Passes next strays := by
  fun_induction skipConstraints s with
  | case1 => cases h; exact ⟨[], .refl _⟩
  | case2 => cases h; exact ⟨[], .refl _⟩
  | case3 => cases h; exact ⟨[], .refl _⟩
  | case4 => cases h
  | case5 s _ _ hparen next hnext _ ih =>
    exact exists_passes_trans (exists_passes_skipGroup hparen rfl hnext) (ih h)
  | case6 => cases h
  | case7 s _ _ hbracket next hnext _ ih =>
    exact exists_passes_trans (exists_passes_skipGroup hbracket rfl hnext) (ih h)
  | case8 s hend _ _ _ hparen hbracket ih =>
    exact exists_passes_trans (exists_passes_advance hend hparen hbracket) (ih h)

/-- Between two streams is nothing, or a clause, or several, with strays behind their marks. -/
def PassesClause (s t : Stream) (strays : List Token) : Prop :=
  ∃ taken, s.ahead = taken ++ t.ahead ∧ Passage strays taken ∧
    ∀ stray ∈ strays, ∃ front mark inner later,
      taken = front ++ mark :: inner ++ stray :: later ∧ mark.kind.StartsClause

namespace PassesClause

variable {t u : Stream} {strays strays' : List Token}

theorem refl (s : Stream) : s.PassesClause s [] := ⟨[], rfl, .nil, by simp⟩

/-- The strays of a clause stand behind its mark, because that is none itself. -/
theorem of_mark {kind : TokenKind} (hkind : s.kind = kind) (hmark : kind.StartsClause)
    (h : s.advance.Passes t strays) : s.PassesClause t strays := by
  have hplain : kind.IsPlain := by
    rcases hmark with rfl | rfl
    · decide
    · exact ⟨rfl, rfl, nofun⟩
  obtain ⟨mark, hahead, heq, -⟩ := exists_ahead_eq (s := s) (hkind ▸ hplain.inside)
  obtain ⟨taken, htaken, hpassage⟩ := h
  rw [hkind] at heq
  refine ⟨mark :: taken, by rw [hahead, htaken]; rfl, .plain (heq ▸ hplain) hpassage, ?_⟩
  intro stray hstray
  obtain ⟨inner, later, rfl⟩ := List.append_of_mem (hpassage.balancedBut.mem_of_mem hstray).1
  exact ⟨[], mark, inner, later, rfl, heq ▸ hmark⟩

/-- A clause passed in two parts has the strays of both. -/
theorem trans (hst : s.PassesClause t strays) (htu : t.PassesClause u strays') :
    s.PassesClause u (strays ++ strays') := by
  obtain ⟨first, hfirst, hpassage, hstrays⟩ := hst
  obtain ⟨second, hsecond, hpassage', hstrays'⟩ := htu
  refine ⟨first ++ second, by rw [hfirst, hsecond, List.append_assoc],
    hpassage.append hpassage', fun stray hstray ↦ ?_⟩
  rcases List.mem_append.1 hstray with hstray | hstray
  · obtain ⟨front, mark, inner, later, rfl, hmark⟩ := hstrays stray hstray
    exact ⟨front, mark, inner, later ++ second, by simp, hmark⟩
  · obtain ⟨front, mark, inner, later, rfl, hmark⟩ := hstrays' stray hstray
    exact ⟨first ++ front, mark, inner, later, by simp, hmark⟩

end PassesClause

/-- A base list takes tokens that are balanced but for strays. -/
theorem exists_passesClause_baseList {bases : Parsed (List BaseEntry)}
    (h : s.baseList source = .ok bases) : ∃ strays, s.PassesClause bases.rest strays := by
  rw [baseList] at h
  split at h
  next hcolon =>
    obtain ⟨strays, hpasses⟩ := exists_passes_baseEntries h
    exact ⟨strays, .of_mark hcolon (.inl rfl) hpasses⟩
  next =>
    cases h
    exact ⟨[], .refl s⟩

theorem exists_passesClause_constraints {next : Stream} (h : s.constraints = .ok next) :
    ∃ strays, s.PassesClause next strays := by
  rw [constraints] at h
  split at h
  next hwhere =>
    obtain ⟨strays, hpasses⟩ := exists_passes_skipConstraints h
    have hkind : s.kind = .identifier "where" := by simpa [TokenKind.isWord] using hwhere
    exact ⟨strays, .of_mark hkind (.inr rfl) hpasses⟩
  next =>
    cases h
    exact ⟨[], .refl s⟩

theorem PassesClause.passes {t : Stream} {strays : List Token} (h : s.PassesClause t strays) :
    s.Passes t strays := by
  obtain ⟨taken, hahead, hpassage, -⟩ := h
  exact ⟨taken, hahead, hpassage⟩

/-! ### Declarations -/

/-- The body of a type is passed over without strays, and ends with a semicolon or a brace. -/
theorem exists_passage_of_typeBody {name : String} {next : Stream}
    (h : s.typeBody name = .ok next) :
    ∃ body, s.ahead = body ++ next.ahead ∧ Passage [] body ∧ IsTypeBody body ∧ EndsItem body := by
  rcases typeBody_eq_ok_iff.1 h with ⟨hbrace, behind, hskip, rfl⟩ | ⟨hsemicolon, rfl⟩
  · obtain ⟨group, hahead, hgroup⟩ := exists_group_of_skipGroup (by rw [hbrace]; rfl) hskip
    rw [hbrace] at hgroup
    have hpassage : Passage [] group := by simpa using Passage.group hgroup.isGroup .nil
    obtain ⟨t, later, rfl, ht⟩ := hgroup.starts
    rw [Stream.eat]
    split
    next hsemicolon =>
      -- A semicolon behind the closing brace is taken as well.
      obtain ⟨u, hu, hkind, -⟩ := exists_ahead_eq (s := behind) (by rw [hsemicolon]; decide)
      rw [hsemicolon] at hkind
      have hboth : Passage [] (t :: later ++ [u]) :=
        hpassage.append (.plain (by rw [hkind]; decide) .nil)
      refine ⟨t :: later ++ [u], ?_, hboth, ⟨⟨t, rfl, .inl ht⟩, hboth.balanced⟩, _, u, rfl,
        .inl hkind⟩
      rw [hahead, hu, List.append_assoc, List.singleton_append]
    next =>
      obtain ⟨front, last, hgroupLast, hlast⟩ := hgroup.exists_last rfl
      exact ⟨t :: later, hahead, hpassage, ⟨⟨t, rfl, .inl ht⟩, hpassage.balanced⟩, front, last,
        hgroupLast, .inr (.inr hlast)⟩
  · obtain ⟨t, hahead, hkind, -⟩ := exists_ahead_eq (s := s) (by rw [hsemicolon]; decide)
    rw [hsemicolon] at hkind
    have hpassage : Passage [] [t] := .plain (by rw [hkind]; decide) .nil
    exact ⟨[t], hahead, hpassage, ⟨⟨t, rfl, .inr hkind⟩, hpassage.balanced⟩, [], t, rfl,
      .inl hkind⟩

/-- **The tokens of a declaration behind its keyword** are passed over with strays, each of which is
one of the declaration, and they end like an item. -/
theorem exists_passage_of_declarator {ordinal start : Nat} {header : HeaderStart}
    {d : Parsed TypeDeclaration} (h : declarator source ordinal start header s = .ok d) :
    ∃ taken strays, s.ahead = taken ++ d.rest.ahead ∧ Passage strays taken ∧ EndsItem taken ∧
      ∀ t ∈ strays, IsStrayOf taken d.value t := by
  obtain ⟨word, parameters, mark, bases, behind, last, hword, hparameters, hmark, hbases, hbehind,
    hlast, rfl⟩ := declarator_eq_ok_iff.1 h
  obtain ⟨name, hname, hkind, hspan⟩ := exists_ahead_eq (kind_ne_endOfFile_of_name? hword)
  obtain ⟨front, hfront, hfrontPassage⟩ :=
    (passes_typeParameterList hparameters).and_then (passes_skipParameters hmark)
  obtain ⟨strays₁, hbaseClause⟩ := exists_passesClause_baseList hbases
  obtain ⟨strays₂, hconstraintClause⟩ := exists_passesClause_constraints hbehind
  obtain ⟨clauses, hclauses, hpassage, hstrays⟩ := hbaseClause.trans hconstraintClause
  obtain ⟨body, hbody, hbodyPassage, hisBody, hends⟩ := exists_passage_of_typeBody hlast
  have hplain : name.kind.IsPlain := hkind ▸ isPlain_of_name? hword
  refine ⟨name :: front ++ clauses ++ body, strays₁ ++ strays₂, ?_, ?_, hends.behind _,
    fun t ht ↦ ⟨?_, ?_⟩⟩
  · rw [hname, hfront, hclauses, hbody]
    simp
  · have hheader := (Passage.plain hplain hfrontPassage).append hpassage
    simpa using hheader.append hbodyPassage
  · exact (hpassage.balancedBut.mem_of_mem ht).2
  · obtain ⟨inside, mark, inner, later, rfl, hstarts⟩ := hstrays t ht
    exact ⟨[], name, front ++ inside, mark, inner, later, body, [], by simp, hspan, hstarts,
      hisBody⟩

/-- What is read of a declaration: the start of its header, and behind that the declaration. -/
theorem exists_headerStart?_of_typeDeclaration? {ordinal : Nat} {d : Parsed TypeDeclaration}
    (h : s.typeDeclaration? source ordinal = .ok (some d)) :
    ∃ header, s.headerStart? source = some header ∧
      declarator source ordinal s.start header.value header.rest = .ok d := by
  rw [typeDeclaration?] at h
  split at h
  · cases h
  next header hheader =>
    cases hd : declarator source ordinal s.start header.value header.rest with
    | error e => rw [hd] at h; cases h
    | ok declaration =>
      rw [hd] at h
      cases h
      exact ⟨header, hheader, hd⟩

/-- Where no type is declared, there is not even the start of a header. -/
theorem headerStart?_eq_none {ordinal : Nat} (h : s.typeDeclaration? source ordinal = .ok none) :
    s.headerStart? source = none := by
  rw [typeDeclaration?] at h
  split at h
  next hnone => exact hnone
  next header _ =>
    cases hd : declarator source ordinal s.start header.value header.rest with
    | error e => rw [hd] at h; cases h
    | ok d => rw [hd] at h; cases h

/-- What a type declaration takes, with its strays, each of which stands in its base list or its
constraints. -/
theorem exists_passage_of_typeDeclaration? {ordinal : Nat} {d : Parsed TypeDeclaration}
    (h : s.typeDeclaration? source ordinal = .ok (some d)) :
    ∃ taken strays, s.ahead = taken ++ d.rest.ahead ∧ Passage strays taken ∧ EndsItem taken ∧
      ∀ t ∈ strays, IsStrayOf taken d.value t := by
  obtain ⟨header, hheader, hd⟩ := exists_headerStart?_of_typeDeclaration? h
  obtain ⟨front, hfront, hpassage⟩ := passes_headerStart? hheader
  obtain ⟨taken, strays, htaken, hpassage', hends, hstrays⟩ := exists_passage_of_declarator hd
  refine ⟨front ++ taken, strays, by rw [hfront, htaken, List.append_assoc],
    hpassage.append hpassage', hends.behind front, fun t ht ↦ ?_⟩
  simpa using (hstrays t ht).around front []

/-! ### Bodies -/

/-- The tokens of a body, with the strays among them and the types in which they stand. -/
structure TakesBody (s t : Stream) (types : List TypeDeclaration) (taken strays : List Token) :
    Prop where
  ahead : s.ahead = taken ++ t.ahead
  balancedBut : BalancedBut strays taken
  strays : ∀ stray ∈ strays, ∃ d ∈ types, IsStrayOf taken d stray

namespace TakesBody

variable {t u : Stream} {types types' : List TypeDeclaration}
  {taken strays later strays' : List Token}

theorem of_passes (h : s.Passes t []) : ∃ taken, TakesBody s t [] taken [] := by
  obtain ⟨taken, hahead, hpassage⟩ := h
  exact ⟨taken, hahead, hpassage.balancedBut, by simp⟩

/-- Bodies taken one behind the other have the types and the strays of both. -/
theorem append (h : TakesBody s t types taken strays)
    (hlater : TakesBody t u types' later strays') :
    TakesBody s u (types ++ types') (taken ++ later) (strays ++ strays') where
  ahead := by rw [h.ahead, hlater.ahead, List.append_assoc]
  balancedBut := h.balancedBut.append hlater.balancedBut
  strays := fun stray hstray ↦ by
    rcases List.mem_append.1 hstray with hstray | hstray
    · obtain ⟨d, hd, hof⟩ := h.strays stray hstray
      exact ⟨d, List.mem_append_left _ hd, by simpa using hof.around [] later⟩
    · obtain ⟨d, hd, hof⟩ := hlater.strays stray hstray
      exact ⟨d, List.mem_append_right _ hd, by simpa using hof.around taken []⟩

/-- A body between the braces of a namespace. -/
theorem braces (h : TakesBody s.advance t types taken strays) (hopen : s.kind = .openBrace)
    (hclose : t.kind = .closeBrace) : ∃ all, TakesBody s t.advance types all strays := by
  obtain ⟨opener, hopener, hopenKind, -⟩ := exists_ahead_eq (s := s) (by rw [hopen]; nofun)
  obtain ⟨closer, hcloser, hcloseKind, -⟩ := exists_ahead_eq (s := t) (by rw [hclose]; nofun)
  have hcloses : opener.kind.closer? = some closer.kind := by
    rw [hopenKind, hcloseKind, hopen, hclose]
    rfl
  refine ⟨opener :: taken ++ [closer], ?_, ?_, fun stray hstray ↦ ?_⟩
  · rw [hopener, h.ahead, hcloser]
    simp
  · simpa using BalancedBut.group hcloses h.balancedBut .nil
  · obtain ⟨d, hd, hof⟩ := h.strays stray hstray
    exact ⟨d, hd, by simpa using hof.around [opener] [closer]⟩

end TakesBody

/-- **The tokens of a body are balanced but for the strays of its types.** -/
theorem Reads.exists_takesBody {braced : Bool} {ordinal : Nat} {b : Body}
    (h : Reads source braced ordinal s b) :
    ∃ taken strays, TakesBody s b.rest (typesOf b.members) taken strays := by
  induction h with
  | @done _ _ s =>
    obtain ⟨taken, hnone⟩ := TakesBody.of_passes (.refl s)
    exact ⟨taken, [], hnone⟩
  | usingDirective _ found _ ih =>
    obtain ⟨taken, hdirective⟩ := TakesBody.of_passes (passes_using? found)
    obtain ⟨later, strays, hlater⟩ := ih
    exact ⟨_, _, hdirective.append hlater⟩
  | @scope braced _ s header content later _ _ word found hcontent _ ihcontent ihlater =>
    obtain ⟨mark, hmark, hrest, hkind⟩ := exists_passes_namespaceHeader found
    obtain ⟨front, hfront⟩ := TakesBody.of_passes
      ((passes_plain (isPlain_of_isWord word)).and_then hmark)
    obtain ⟨inside, strays, hinside⟩ := ihcontent
    obtain ⟨back, strays', hback⟩ := ihlater
    rw [hrest] at hinside
    cases hscoped : header.value.2 with
    | true =>
      rw [hscoped, if_pos rfl] at hkind
      rw [hscoped, behindBody, if_pos rfl] at hback
      obtain ⟨semicolon, hsemicolon⟩ := TakesBody.of_passes (passes_advance hkind (by decide))
      exact ⟨_, _, ((hfront.append hsemicolon).append hinside).append hback⟩
    | false =>
      rw [hscoped] at hkind
      rw [hscoped, behindBody, if_neg (by decide)] at hback
      have hclose := hcontent.kind_rest_of_block hscoped
      obtain ⟨all, hall⟩ := hinside.braces (by simpa using hkind) hclose
      obtain ⟨semicolon, hsemicolon⟩ := TakesBody.of_passes
        (passes_eat content.rest.advance .semicolon (by decide))
      have hscope := (hfront.append hall).append (hsemicolon.append hback)
      exact ⟨_, _, by simpa [typesOf, Member.types, Body.toScope, Body.behindScope] using hscope⟩
  | type _ _ _ found _ ih =>
    obtain ⟨taken, strays, hahead, hpassage, -, hstrays⟩ :=
      exists_passage_of_typeDeclaration? found
    obtain ⟨later, strays', hlater⟩ := ih
    have htype : TakesBody _ _ [_] taken strays :=
      ⟨hahead, hpassage.balancedBut, fun stray hstray ↦
        ⟨_, List.mem_singleton_self _, hstrays stray hstray⟩⟩
    exact ⟨_, _, htype.append hlater⟩
  | item goesOn _ _ _ found _ ih =>
    obtain ⟨taken, hitem⟩ := TakesBody.of_passes (passes_skipItem goesOn.kind found)
    obtain ⟨later, strays, hlater⟩ := ih
    exact ⟨_, _, hitem.append hlater⟩

end Stream

/-! ### Sources -/

/-- A parsed file is what the parser reads off the tokens of its source. -/
theorem SourceFile.exists_reads_of_parse {source : String} {file : SourceFile}
    (h : SourceFile.parse source = .ok file) :
    ∃ tokens b, tokenize source = .ok tokens ∧ TokensFrom source.toList 0 tokens ∧
      Stream.Reads source.toList false 0 ⟨tokens, 0⟩ b ∧ file = ⟨b.usings, b.members⟩ := by
  have hdivides := divides_tokenize source
  cases htokens : tokenize source with
  | error e =>
    rw [parse, htokens] at h
    cases h
  | ok tokens =>
    rw [htokens] at hdivides
    rw [parse_of_tokenize htokens] at h
    cases hb : Stream.bodyOf source.toList false 0 ⟨tokens, 0⟩ with
    | error e =>
      rw [hb] at h
      cases h
    | ok b =>
      rw [hb] at h
      cases h
      exact ⟨tokens, b, rfl, hdivides, Stream.bodyOf_eq_ok_iff.1 hb, rfl⟩

/-- The tokens before the end of the file, if what is ahead starts with it. -/
theorem eq_of_append_endOfFile {front taken : List Token} {last : Token} {s : Stream}
    (hfront : ∀ t ∈ front, t.kind ≠ .endOfFile) (hlast : last.kind = .endOfFile)
    (htaken : ∀ t ∈ taken, t.kind ≠ .endOfFile) (hs : s.kind = .endOfFile)
    (h : front ++ [last] = taken ++ s.ahead) : front = taken := by
  obtain ⟨_ | ⟨t, ts⟩, prevEnd⟩ := s
  · rw [List.append_nil] at h
    exact absurd hlast (htaken last (by rw [← h]; simp))
  · rcases List.append_eq_append_iff.1 h with ⟨middle, rfl, hmiddle⟩ | ⟨middle, rfl, hmiddle⟩
    · rcases List.cons_eq_append_iff.1 hmiddle with ⟨rfl, -⟩ | ⟨middle', rfl, -⟩
      · exact (List.append_nil _).symm
      · exact absurd hlast (htaken last (by simp))
    · rcases List.cons_eq_append_iff.1 hmiddle with ⟨rfl, -⟩ | ⟨middle', rfl, -⟩
      · exact List.append_nil _
      · exact absurd hs (hfront t (by simp))

theorem SourceTree.file_of_parse {path source : String} {tree : SourceTree}
    (h : SourceTree.parse path source = .ok tree) :
    SourceFile.parse source = .ok tree.file := by
  rw [parse] at h
  split at h
  next file hfile =>
    cases h
    exact hfile
  next => cases h

/-- **A source that is read is balanced but for strays in headers.** Up to the end of the file every
delimiter is closed by its own kind, innermost first, but for some closing delimiters and opening
braces, each of which stands in a base list or a constraint clause of a type that was read. -/
theorem SourceTree.parse_balanced_but_strays {path source : String} {tree : SourceTree}
    (h : SourceTree.parse path source = .ok tree) :
    ∃ taken strays, tokenize source =
        .ok (taken ++ [⟨.endOfFile, ⟨source.utf8ByteSize, source.utf8ByteSize⟩⟩]) ∧
      BalancedBut strays taken ∧ (∀ t ∈ strays, ∃ d ∈ tree.types, IsStrayOf taken d t) ∧
      (strays = [] → Balanced (kindsOf taken)) := by
  obtain ⟨tokens, b, htokens, hdivides, hreads, hfile⟩ :=
    SourceFile.exists_reads_of_parse (file_of_parse h)
  obtain ⟨taken, strays, hahead, hbalanced, hstrays⟩ := hreads.exists_takesBody
  obtain ⟨front, rfl, hfront⟩ := hdivides.exists_eq_concat
  have hend : b.rest.kind = .endOfFile := by simpa [Stream.endsBody] using hreads.endsBody
  obtain rfl : front = taken :=
    eq_of_append_endOfFile (fun t ht ↦ (hfront t ht).1) rfl hbalanced.inside hend hahead
  refine ⟨front, strays, ?_, hbalanced, ?_, ?_⟩
  · rw [htokens, Text.byteLength_toList]
  · rw [SourceTree.types, hfile]
    exact hstrays
  · rintro rfl
    exact hbalanced.balanced

theorem exists_eq_ok_of_isOk {ε α : Type} {x : Except ε α} (h : x.isOk = true) :
    ∃ a, x = .ok a := by
  cases x with
  | error e => cases h
  | ok a => exact ⟨a, rfl⟩

/-- A source with a stray. -/
theorem SourceTree.parse_balanced_but_strays_sample :
    ∃ tree, SourceTree.parse "A.cs" "class A : B) {}" = .ok tree ∧
      ∃ taken strays, tokenize "class A : B) {}" = .ok (taken ++ [⟨.endOfFile, ⟨15, 15⟩⟩]) ∧
        BalancedBut strays taken ∧ (∀ t ∈ strays, ∃ d ∈ tree.types, IsStrayOf taken d t) ∧
        (strays = [] → Balanced (kindsOf taken)) := by
  obtain ⟨tree, htree⟩ : ∃ tree, SourceTree.parse "A.cs" "class A : B) {}" = .ok tree :=
    exists_eq_ok_of_isOk (by decide +kernel)
  exact ⟨tree, htree, SourceTree.parse_balanced_but_strays htree⟩

/-- A source whose parenthesis is closed but was not opened is read nonetheless. -/
theorem SourceTree.parse_unbalanced_sample :
    (∃ tree, SourceTree.parse "A.cs" "class A : B) {}" = .ok tree) ∧
      ∃ taken, tokenize "class A : B) {}" = .ok (taken ++ [⟨.endOfFile, ⟨15, 15⟩⟩]) ∧
        ¬Balanced (kindsOf taken) := by
  have htokens : (tokenize "class A : B) {}").toOption =
      some ([⟨.identifier "class", ⟨0, 5⟩⟩, ⟨.identifier "A", ⟨6, 7⟩⟩, ⟨.colon, ⟨8, 9⟩⟩,
        ⟨.identifier "B", ⟨10, 11⟩⟩, ⟨.closeParen, ⟨11, 12⟩⟩, ⟨.openBrace, ⟨13, 14⟩⟩,
        ⟨.closeBrace, ⟨14, 15⟩⟩] ++ [⟨.endOfFile, ⟨15, 15⟩⟩]) := by
    decide +kernel
  exact ⟨exists_eq_ok_of_isOk (by decide +kernel), _, eq_ok_of_toOption htokens, by decide⟩

end DoubleDispatch
