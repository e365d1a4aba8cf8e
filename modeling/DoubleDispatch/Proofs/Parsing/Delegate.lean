import DoubleDispatch.Proofs.Parsing.Reaching
import DoubleDispatch.Proofs.Parsing.Skipping
import DoubleDispatch.Proofs.Printing.Syntax

/-!
# Delegates

A delegate is not read but skipped, token by token. So a delegate between two items changes nothing
of what is read around it, unless a parser takes a word in it for the start of something else. The
constraints `class` and `struct` are such words: behind them the parser looks for the name of a type
and gives up. These are the only delegates with ordinary names that it does not get over
(`SourceFile.parse_delegate_iff`).
-/

namespace DoubleDispatch

/-! ### Delegates as they are written -/

/-- The word `class` or `struct`. -/
def TokenKind.IsKindWord (kind : TokenKind) : Prop :=
  kind = .identifier "class" ∨ kind = .identifier "struct"

/-- A constraint: the word `class` or `struct`, perhaps with a question mark, or anything else, such
as a type or `new()`, that has ordinary names. -/
inductive IsConstraint : List Token → Prop
  | kind {word : Token} (hword : word.kind.IsKindWord) : IsConstraint [word]
  | nullable {word mark : Token} (hword : word.kind.IsKindWord) (hmark : mark.kind = .question) :
    IsConstraint [word, mark]
  | other {tokens : List Token} (h : IsOrdinary tokens) : IsConstraint tokens

/-- A constraint that says of which kind a type is. -/
def IsKindConstraint (tokens : List Token) : Prop :=
  ∃ word ∈ tokens.head?, word.kind.IsKindWord

/-- The constraints of one type parameter. -/
structure WrittenClause where
  word : Token
  parameter : Token
  colon : Token
  first : List Token
  later : List (Token × List Token)
deriving Repr

namespace WrittenClause

/-- The constraints of a clause. -/
def constraints (c : WrittenClause) : List (List Token) := c.first :: c.later.map (·.2)

/-- The tokens of constraints behind commas. -/
def tokensOfLater (later : List (Token × List Token)) : List Token :=
  later.flatMap fun (comma, constraint) ↦ comma :: constraint

/-- The tokens of a clause. -/
def tokens (c : WrittenClause) : List Token :=
  c.word :: c.parameter :: c.colon :: (c.first ++ tokensOfLater c.later)

/-- Word, colon and commas are what they should be, and the type parameter has a name of its own. -/
structure IsWellFormed (c : WrittenClause) : Prop where
  word : c.word.kind = .identifier "where"
  parameter : ∃ name, c.parameter.kind = .identifier name ∧ name ∉ "where" :: openingWords
  colon : c.colon.kind = .colon
  constraints : ∀ constraint ∈ c.constraints, IsConstraint constraint
  commas : ∀ p ∈ c.later, p.1.kind = .comma

end WrittenClause

/-- A delegate as it is written: attribute sections, modifiers, the word `delegate`, the type that
is returned, the name, type parameters with their angle brackets if there are any, parameters,
constraint clauses and a semicolon. -/
structure WrittenDelegate where
  sections : List (List Token)
  modifiers : List Token
  word : Token
  returned : List Token
  name : Token
  typeParameters : List Token
  parameters : List Token
  clauses : List WrittenClause
  semicolon : Token
deriving Repr

namespace WrittenDelegate

/-- The tokens before the constraints. -/
def head (d : WrittenDelegate) : List Token :=
  d.sections.flatten ++ d.modifiers ++ d.word :: (d.returned ++ d.name :: d.typeParameters) ++
    d.parameters

/-- The tokens of a delegate. -/
def tokens (d : WrittenDelegate) : List Token :=
  d.head ++ d.clauses.flatMap (·.tokens) ++ [d.semicolon]

/-- The constraints of a delegate. -/
def constraints (d : WrittenDelegate) : List (List Token) := d.clauses.flatMap (·.constraints)

/-- All parts are what they should be, and the names outside of groups are ordinary. -/
structure IsWellFormed (d : WrittenDelegate) : Prop where
  sections : ∀ group ∈ d.sections, IsGroupIn .openBracket group
  modifiers : ∀ t ∈ d.modifiers, ∃ word ∈ Stream.modifierWords, t.kind = .identifier word
  word : d.word.kind = .identifier "delegate"
  returned : IsOrdinary d.returned
  name : ∃ name, d.name.kind = .identifier name ∧ name ∉ openingWords
  typeParameters : d.typeParameters = [] ∨ ∃ less inner greater,
    d.typeParameters = less :: inner ++ [greater] ∧ less.kind = .less ∧ IsOrdinary inner ∧
      greater.kind = .greater
  parameters : IsGroupIn .openParen d.parameters
  clauses : ∀ c ∈ d.clauses, c.IsWellFormed
  semicolon : d.semicolon.kind = .semicolon

end WrittenDelegate

/-! ### Ordinary tokens of a delegate -/

theorem TokenKind.isOrdinary_identifier {kind : TokenKind} {name : String}
    (h : kind = .identifier name) (hname : name ∉ openingWords) : kind.IsOrdinary := by
  rintro word hword rfl
  cases h
  exact hname hword

/-- A word that opens nothing may stand in front of ordinary tokens. -/
theorem isOrdinary_word {t : Token} {name : String} (h : t.kind = .identifier name)
    (hname : name ∉ openingWords) {later : List Token} (hlater : IsOrdinary later) :
    IsOrdinary (t :: later) :=
  .plain (by rw [h]; exact ⟨rfl, rfl, nofun⟩) (TokenKind.isOrdinary_identifier h hname) hlater

/-- A mark may stand in front of ordinary tokens. -/
theorem isOrdinary_mark {t : Token} (h : t.kind.IsMark) {later : List Token}
    (hlater : IsOrdinary later) : IsOrdinary (t :: later) :=
  .plain h.plain (.of_noWord h.noWord) hlater

/-- Groups of one kind of bracket are ordinary. -/
theorem isOrdinary_groups {groups : List (List Token)} {opener : TokenKind}
    (h : ∀ group ∈ groups, IsGroupIn opener group) : IsOrdinary groups.flatten := by
  induction groups with
  | nil => exact .nil
  | cons group groups ih =>
    obtain ⟨hgroup, hgroups⟩ := List.forall_mem_cons.1 h
    exact .group hgroup.isGroup (ih hgroups)

/-- Modifiers are ordinary words. -/
theorem isOrdinary_modifiers {modifiers : List Token}
    (h : ∀ t ∈ modifiers, ∃ word ∈ Stream.modifierWords, t.kind = .identifier word) :
    IsOrdinary modifiers := by
  have hdisjoint : ∀ word ∈ Stream.modifierWords, word ∉ openingWords := by decide
  induction modifiers with
  | nil => exact .nil
  | cons t modifiers ih =>
    obtain ⟨⟨word, hword, hkind⟩, hmodifiers⟩ := List.forall_mem_cons.1 h
    exact isOrdinary_word hkind (hdisjoint word hword) (ih hmodifiers)

/-- The head of a delegate, up to its clauses, is ordinary. -/
theorem WrittenDelegate.IsWellFormed.isOrdinary_head {d : WrittenDelegate} (h : d.IsWellFormed) :
    IsOrdinary d.head := by
  obtain ⟨name, hname, hordinary⟩ := h.name
  have htypeParameters : IsOrdinary d.typeParameters := by
    rcases h.typeParameters with hnone | ⟨less, inner, greater, hsome, hless, hinner, hgreater⟩
    · rw [hnone]
      exact .nil
    · rw [hsome]
      exact isOrdinary_mark (hless ▸ ⟨by decide, rfl⟩)
        (hinner.append (isOrdinary_mark (hgreater ▸ ⟨by decide, rfl⟩) .nil))
  have hparameters : IsOrdinary d.parameters := by
    simpa using IsOrdinary.group h.parameters.isGroup .nil
  have hmiddle := isOrdinary_word h.word (by decide)
    (h.returned.append (isOrdinary_word hname hordinary htypeParameters))
  exact (((isOrdinary_groups h.sections).append (isOrdinary_modifiers h.modifiers)).append
    hmiddle).append hparameters

/-- A constraint that is not `class` or `struct` is ordinary. -/
theorem IsConstraint.isOrdinary {tokens : List Token} (h : IsConstraint tokens)
    (hkind : ¬IsKindConstraint tokens) : IsOrdinary tokens := by
  cases h with
  | kind hword => exact absurd ⟨_, rfl, hword⟩ hkind
  | nullable hword _ => exact absurd ⟨_, rfl, hword⟩ hkind
  | other h => exact h

theorem isMark_comma {t : Token} (h : t.kind = .comma) : t.kind.IsMark := h ▸ ⟨by decide, rfl⟩

/-- Ordinary constraints with commas between them are ordinary. -/
theorem WrittenClause.isOrdinary_tokensOfLater {later : List (Token × List Token)}
    (h : ∀ p ∈ later, IsOrdinary p.2) (hcommas : ∀ p ∈ later, p.1.kind = .comma) :
    IsOrdinary (tokensOfLater later) := by
  induction later with
  | nil => exact .nil
  | cons p later ih =>
    obtain ⟨hp, hlater⟩ := List.forall_mem_cons.1 h
    obtain ⟨hcomma, hcommas⟩ := List.forall_mem_cons.1 hcommas
    exact isOrdinary_mark (isMark_comma hcomma) (hp.append (ih hlater hcommas))

/-- What stands before the first constraint of a clause is ordinary. -/
theorem WrittenClause.IsWellFormed.isOrdinary_start {c : WrittenClause} (h : c.IsWellFormed) :
    IsOrdinary [c.word, c.parameter] := by
  obtain ⟨name, hname, hordinary⟩ := h.parameter
  exact isOrdinary_word h.word (by decide)
    (isOrdinary_word hname (fun hmem ↦ hordinary (List.mem_cons_of_mem _ hmem)) .nil)

theorem WrittenClause.IsWellFormed.isMark_colon {c : WrittenClause} (h : c.IsWellFormed) :
    c.colon.kind.IsMark := h.colon ▸ ⟨by decide, rfl⟩

/-- A clause without a kind among its constraints is ordinary. -/
theorem WrittenClause.IsWellFormed.isOrdinary {c : WrittenClause} (h : c.IsWellFormed)
    (hkinds : ∀ constraint ∈ c.constraints, ¬IsKindConstraint constraint) :
    IsOrdinary c.tokens := by
  have hconstraints : ∀ constraint ∈ c.constraints, IsOrdinary constraint := fun constraint hmem ↦
    (h.constraints constraint hmem).isOrdinary (hkinds constraint hmem)
  obtain ⟨hfirst, hlater⟩ := List.forall_mem_cons.1 hconstraints
  exact h.isOrdinary_start.append (isOrdinary_mark h.isMark_colon
    (hfirst.append (isOrdinary_tokensOfLater (List.forall_mem_map.1 hlater) h.commas)))

/-! ### The first constraint of a kind -/

/-- Tokens in which the parser does not find the header of a type: no name, or a name and behind it
a word that starts no constraint clause. -/
def LacksHeader (tokens : List Token) : Prop :=
  (∃ t later, tokens = t :: later ∧ t.kind.name? = none) ∨
    ∃ t u later name, tokens = t :: u :: later ∧ u.kind = .identifier name ∧ name ≠ "where"

/-- Ordinary tokens, a mark, and behind it the word `class` or `struct`, with no header of a type
behind it. -/
def MeetsKind (tokens : List Token) : Prop :=
  ∃ front mark word behind, tokens = front ++ mark :: word :: behind ∧ IsOrdinary front ∧
    mark.kind.IsMark ∧ word.kind.IsKindWord ∧ LacksHeader behind

/-- A kind met behind ordinary tokens is met from them. -/
theorem MeetsKind.behind {tokens front : List Token} (h : MeetsKind tokens)
    (hfront : IsOrdinary front) : MeetsKind (front ++ tokens) := by
  obtain ⟨inner, mark, word, behind, rfl, hinner, hmark, hword, hlacks⟩ := h
  exact ⟨front ++ inner, mark, word, behind, by simp, hfront.append hinner, hmark, hword, hlacks⟩

/-- Ordinary tokens are not the constraint of a kind. -/
theorem IsOrdinary.not_isKindConstraint {tokens : List Token} (h : IsOrdinary tokens) :
    ¬IsKindConstraint tokens := by
  rintro ⟨word, hword, hkind⟩
  cases h with
  | nil => cases hword
  | plain _ hordinary _ =>
    obtain rfl := Option.some.inj hword
    rcases hkind with hkind | hkind
    · exact hordinary "class" (by decide) hkind
    · exact hordinary "struct" (by decide) hkind
  | group hgroup _ =>
    obtain ⟨closes, -⟩ := hgroup
    obtain rfl := Option.some.inj hword
    rcases hkind with hkind | hkind <;> (rw [hkind] at closes; cases closes)

/-- Behind constraints of a kind, the first of them is met. -/
theorem meetsKind_of_constraints {mark : Token} {first rest : List Token}
    {later : List (Token × List Token)} (hmark : mark.kind.IsMark)
    (hconstraints : ∀ constraint ∈ first :: later.map (·.2), IsConstraint constraint)
    (hcommas : ∀ p ∈ later, p.1.kind = .comma) (hrest : LacksHeader rest)
    (hkind : ∃ constraint ∈ first :: later.map (·.2), IsKindConstraint constraint) :
    MeetsKind (mark :: (first ++ WrittenClause.tokensOfLater later ++ rest)) := by
  induction later generalizing mark first with
  | nil =>
    obtain ⟨constraint, hmem, hkind⟩ := hkind
    obtain rfl := List.mem_singleton.1 hmem
    cases hconstraints constraint List.mem_cons_self with
    | @kind word hword => exact ⟨[], mark, word, rest, rfl, .nil, hmark, hword, hrest⟩
    | @nullable word question hword hquestion =>
      refine ⟨[], mark, word, question :: rest, rfl, .nil, hmark, hword, .inl ⟨_, _, rfl, ?_⟩⟩
      rw [hquestion]
      rfl
    | other h => exact absurd hkind h.not_isKindConstraint
  | cons p later ih =>
    obtain ⟨hcomma, hcommas⟩ := List.forall_mem_cons.1 hcommas
    obtain ⟨hfirst, hlater⟩ := List.forall_mem_cons.1 hconstraints
    cases hfirst with
    | @kind word hword =>
      refine ⟨[], mark, word, _, rfl, .nil, hmark, hword, .inl ⟨p.1, _, rfl, ?_⟩⟩
      rw [hcomma]
      rfl
    | @nullable word question hword hquestion =>
      refine ⟨[], mark, word, _, rfl, .nil, hmark, hword, .inl ⟨question, _, rfl, ?_⟩⟩
      rw [hquestion]
      rfl
    | other h =>
      have hkind : ∃ constraint ∈ p.2 :: later.map (·.2), IsKindConstraint constraint := by
        simpa [h.not_isKindConstraint] using hkind
      have hmeets := (ih (isMark_comma hcomma) hlater hcommas hkind).behind
        (isOrdinary_mark hmark h)
      simpa [WrittenClause.tokensOfLater] using hmeets

/-- Where constraint clauses and a semicolon stand, there is no header of a type. -/
theorem lacksHeader_of_clauses {clauses : List WrittenClause} {semicolon : Token}
    {rest : List Token} (hclauses : ∀ c ∈ clauses, c.IsWellFormed)
    (hsemicolon : semicolon.kind = .semicolon) :
    LacksHeader (clauses.flatMap (·.tokens) ++ semicolon :: rest) := by
  cases clauses with
  | nil =>
    refine .inl ⟨semicolon, rest, rfl, ?_⟩
    rw [hsemicolon]
    rfl
  | cons c clauses =>
    obtain ⟨name, hname, hne⟩ := (hclauses c List.mem_cons_self).parameter
    refine .inr ⟨c.word, c.parameter, _, name, rfl, hname, ?_⟩
    rintro rfl
    exact hne List.mem_cons_self

/-- Clauses with a kind among their constraints let the parser meet it. -/
theorem meetsKind_of_clauses {clauses : List WrittenClause} {semicolon : Token}
    {rest : List Token} (hclauses : ∀ c ∈ clauses, c.IsWellFormed)
    (hsemicolon : semicolon.kind = .semicolon)
    (hkind : ∃ c ∈ clauses, ∃ constraint ∈ c.constraints, IsKindConstraint constraint) :
    MeetsKind (clauses.flatMap (·.tokens) ++ semicolon :: rest) := by
  induction clauses with
  | nil => simp at hkind
  | cons c clauses ih =>
    obtain ⟨hc, hlater⟩ := List.forall_mem_cons.1 hclauses
    by_cases hfirst : ∃ constraint ∈ c.constraints, IsKindConstraint constraint
    · have hlacks : LacksHeader (clauses.flatMap (·.tokens) ++ semicolon :: rest) :=
        lacksHeader_of_clauses hlater hsemicolon
      have hmeets := (meetsKind_of_constraints hc.isMark_colon hc.constraints hc.commas hlacks
        hfirst).behind hc.isOrdinary_start
      simpa [WrittenClause.tokens] using hmeets
    · have hkind : ∃ c ∈ clauses, ∃ constraint ∈ c.constraints, IsKindConstraint constraint := by
        simpa [hfirst] using hkind
      have hordinary := hc.isOrdinary fun constraint hmem hconstraint ↦
        hfirst ⟨constraint, hmem, hconstraint⟩
      simpa using (ih hlater hkind).behind hordinary

/-! ### Where the parser gives up -/

namespace Stream

variable {source : List Char} {s : Stream}

/-- The keyword of a type starts a header. -/
theorem exists_headerStart?_of_isKindWord (h : s.kind.IsKindWord) :
    ∃ header, s.headerStart? source = some header ∧ header.rest = s.advance := by
  have hbracket : s.kind ≠ .openBracket := by rcases h with h | h <;> (rw [h]; nofun)
  have hsections : s.sections? source = some ⟨[], s⟩ := by
    rw [sections?, dif_neg hbracket]
  have hmodifiers : readModifiers s.prevEnd s.ahead = ⟨[], s⟩ := by
    rcases h with h | h
    · exact readModifiers_nil h (by decide)
    · exact readModifiers_nil h (by decide)
  have hkeyword : ∃ kind, s.typeKeyword? = some ⟨kind, s.advance⟩ := by
    rcases h with h | h
    · exact ⟨.classType, by rw [typeKeyword?, h]; rfl⟩
    · exact ⟨.structType, by rw [typeKeyword?, h]; rfl⟩
  obtain ⟨kind, hkeyword⟩ := hkeyword
  exact ⟨⟨⟨[], [], kind⟩, s.advance⟩, by simp only [headerStart?, hsections, hmodifiers, hkeyword],
    rfl⟩

/-- A name is called for behind the keyword of a type, and behind the name no further word. -/
theorem exists_declarator_eq_error (h : LacksHeader s.ahead) (ordinal start : Nat)
    (header : HeaderStart) : ∃ e, s.declarator source ordinal start header = .error e := by
  rw [declarator]
  cases hname : s.kind.name? with
  | none => exact ⟨_, rfl⟩
  | some name =>
    obtain ⟨word, hword, hne⟩ : ∃ word, s.advance.kind = .identifier word ∧ word ≠ "where" := by
      obtain ⟨ahead, prevEnd⟩ := s
      obtain ⟨t, later, rfl, ht⟩ | ⟨t, u, later, word, rfl, hu, hne⟩ := h
      · rw [show Stream.kind _ = t.kind from rfl, ht] at hname
        cases hname
      · rw [advance_cons (kind_ne_endOfFile_of_name? hname)]
        exact ⟨word, hu, hne⟩
    have hparameters : s.advance.typeParameterList = .ok ⟨[], s.advance⟩ := by
      rw [typeParameterList, if_neg (by rw [hword]; simp)]
    have hskip : s.advance.skipParameters = .ok s.advance := by
      rw [skipParameters, if_neg (by rw [hword]; simp)]
    have hbases : s.advance.baseList source = .ok ⟨[], s.advance⟩ := by
      rw [baseList, if_neg (by rw [hword]; simp)]
    have hconstraints : s.advance.constraints = .ok s.advance := by
      rw [constraints, if_neg]
      rw [hword, TokenKind.isWord, beq_iff_eq]
      exact fun heq ↦ hne (TokenKind.identifier.inj heq)
    have hbody : s.advance.typeBody name = .error (s.advance.unexpected (.typeBody name)) := by
      rw [typeBody, hword]
    refine ⟨s.advance.unexpected (.typeBody name), ?_⟩
    dsimp only
    rw [hparameters, ok_bind]
    dsimp only
    rw [hskip, ok_bind, hbases, ok_bind]
    dsimp only
    rw [hconstraints, ok_bind, hbody]
    rfl

/-- No body is read from the word `class` or `struct` on if it is no keyword of a type. -/
theorem bodyOf_ne_ok_of_isKindWord (hword : s.kind.IsKindWord)
    (hlacks : LacksHeader s.advance.ahead)
    (braced : Bool) (ordinal : Nat) (b : Body) : bodyOf source braced ordinal s ≠ .ok b := by
  obtain ⟨hend, hcloser⟩ : s.kind ≠ .endOfFile ∧ s.kind.isCloser = false := by
    rcases hword with hword | hword <;> (rw [hword]; simp [TokenKind.isCloser])
  have hwords : s.kind.isWord "using" = false ∧ s.kind.isWord "global" = false ∧
      s.kind.isWord "namespace" = false := by
    rcases hword with hword | hword <;> (rw [hword]; decide)
  have hnone : s.using? source = none := by
    rw [using?, hwords.1, hwords.2.1]
    rfl
  obtain ⟨header, hheader, hrest⟩ := exists_headerStart?_of_isKindWord hword
  obtain ⟨e, he⟩ := exists_declarator_eq_error (hrest ▸ hlacks) ordinal s.start header.value
  rw [(goesOn_of_kind hcloser hend).bodyOf_type hnone hwords.2.2, bodyFromType, typeDeclaration?,
    hheader]
  dsimp only
  rw [he]
  intro hok
  cases hok

/-- **The parser gives up where it meets a constraint of a kind.** -/
theorem bodyOf_ne_ok (h : MeetsKind s.ahead) (braced : Bool) (ordinal : Nat) (b : Body) :
    bodyOf source braced ordinal s ≠ .ok b := by
  obtain ⟨ahead, prevEnd⟩ := s
  obtain ⟨front, mark, word, behind, rfl, hfront, hmark, hword, hlacks⟩ := h
  obtain ⟨prevEnd', hskips⟩ : ∃ prevEnd', Skips source braced
      ⟨front ++ mark :: word :: behind, prevEnd⟩ ⟨mark :: word :: behind, prevEnd'⟩ :=
    skips_of_isOrdinary hfront hmark prevEnd
  rw [(hskips.trans (skips_mark hmark prevEnd')).bodyOf_eq]
  refine bodyOf_ne_ok_of_isKindWord (s := ⟨word :: behind, _⟩) hword ?_ braced ordinal b
  rw [advance_cons (by rcases hword with hword | hword <;> (rw [hword]; nofun))]
  exact hlacks

end Stream

/-! ### A delegate between two items -/

/-- Tokens are inserted between two tokens of a source; those behind them move, and nothing else
changes. -/
structure Insertion.Adds (I : Insertion) (front added tail : List Token) : Prop where
  source : tokenize (String.ofList I.source) = .ok (front ++ tail)
  changed : tokenize (String.ofList I.changed) =
    .ok (front ++ (added ++ tail.map (Token.moved (Text.byteLength I.inserted))))
  stop_le : ∀ t ∈ front, t.span.stop ≤ Text.byteLength I.before
  le_start : ∀ t ∈ tail, Text.byteLength I.before ≤ t.span.start

/-- Two tokens of a source between which an item of a body starts or the body ends: the first is the
last one of an item before, or else the second is the first one of the source. -/
structure Insertion.IsBetweenItems (I : Insertion) (front tail : List Token) : Prop where
  ends : front = [] ∨ EndsItem front
  reaches : ∃ braced ordinal prevEnd,
    Stream.Reaches I.source braced ordinal ⟨tail, prevEnd⟩ false 0 ⟨front ++ tail, 0⟩

namespace Insertion

variable {I : Insertion} {front added tail : List Token}

/-- The tokens around an insertion end where they start or behind it. -/
theorem Adds.start_le_stop (h : I.Adds front added tail) :
    ∀ t ∈ front ++ tail, t.span.start ≤ t.span.stop :=
  (tokensFrom_of_tokenize h.source).start_le_stop

/-- The tokens behind the place in the source with the text. -/
def movedTail (I : Insertion) (tail : List Token) : List Token :=
  tail.map (Token.moved (Text.byteLength I.inserted))

/-- The tokens before the place are the same in both sources. -/
theorem Adds.beside_front (h : I.Adds front added tail) :
    (I.replacement.front tail (added ++ I.movedTail tail)).Beside ⟨front ++ tail, 0⟩
      ⟨front ++ (added ++ I.movedTail tail), 0⟩ := by
  refine ⟨front, front, rfl, rfl, List.forall₂_same.2 fun t ht ↦ ?_⟩
  have hle := h.start_le_stop t (List.mem_append_left tail ht)
  have hstop := h.stop_le t ht
  exact ⟨rfl, ⟨rfl, Nat.le_trans hle hstop⟩, rfl, hstop⟩

/-- The tokens behind the place are moved. -/
theorem Adds.beside_back (h : I.Adds front added tail) (prevEnd prevEnd' : Nat) :
    I.replacement.back.Beside ⟨tail, prevEnd⟩ ⟨I.movedTail tail, prevEnd'⟩ := by
  refine ⟨tail, _, (List.append_nil tail).symm, (List.append_nil _).symm, ?_⟩
  rw [movedTail, List.forall₂_map_right_iff, List.forall₂_same]
  intro t ht
  have hle := h.start_le_stop t (List.mem_append_right front ht)
  have hstart := h.le_start t ht
  have hmeet {n : Nat} (hn : Text.byteLength I.before ≤ n) :
      I.replacement.back.Meet n (n + Text.byteLength I.inserted) := by
    obtain ⟨m, rfl⟩ := Nat.exists_eq_add_of_le hn
    exact ⟨m, rfl, Nat.add_right_comm _ _ _⟩
  exact ⟨rfl, hmeet hstart, hmeet (Nat.le_trans hstart hle)⟩

end Insertion

/-! ### Trees that differ in spans -/

theorem usings_withoutSpan {us us' : List UsingDirective}
    (h : List.Forall₂ (UsingDirective.Matches .same) us us') :
    us'.map UsingDirective.withoutSpan = us.map UsingDirective.withoutSpan := by
  refine map_eq_of_forall₂ h fun u u' hu ↦ ?_
  rw [UsingDirective.withoutSpan, UsingDirective.withoutSpan, hu.kind, hu.isGlobal,
    show u'.target = u.target from hu.target.symm]

/-- Declarations alike but for places are equal without their spans. -/
theorem TypeDeclaration.Matches.withoutSpans {d d' : TypeDeclaration} (h : d.Matches .same d') :
    d'.withoutSpans = d.withoutSpans := by
  have hsections : d'.sections.map AttributeSection.withoutSpans =
      d.sections.map AttributeSection.withoutSpans := by
    refine map_eq_of_forall₂ h.sections fun s s' hs ↦ ?_
    have hattributes : s'.attributes.map Attribute.withoutSpan =
        s.attributes.map Attribute.withoutSpan :=
      map_eq_of_forall₂ hs.attributes fun a a' ha ↦ by
        rw [Attribute.withoutSpan, Attribute.withoutSpan, show a'.name = a.name from ha.symm]
    rw [AttributeSection.withoutSpans, AttributeSection.withoutSpans, hs.target, hattributes]
  have hbases : d'.bases.map BaseEntry.withoutSpan = d.bases.map BaseEntry.withoutSpan :=
    map_eq_of_forall₂ h.bases fun b b' hb ↦ by
      rw [BaseEntry.withoutSpan, BaseEntry.withoutSpan, show b'.text = b.text from hb.symm]
  rw [TypeDeclaration.withoutSpans, TypeDeclaration.withoutSpans, h.ordinal, h.kind, h.name,
    h.typeParameters, h.modifiers, hsections, hbases]

mutual

theorem Member.Matches.withoutSpans {m m' : Member} (h : m.Matches .same m') :
    m'.withoutSpans = m.withoutSpans :=
  match m, m', h with
  | .type _, .type _, hd => congrArg Member.type (TypeDeclaration.Matches.withoutSpans hd)
  | .scope .., .scope .., ⟨hname, hscoped, husings, hmembers⟩ => by
    rw [Member.withoutSpans, Member.withoutSpans, hname, hscoped, usings_withoutSpan husings,
      membersWithoutSpans_of_membersMatch hmembers]

/-- Members alike but for places are equal without their spans. -/
theorem membersWithoutSpans_of_membersMatch {ms ms' : List Member} (h : membersMatch .same ms ms') :
    membersWithoutSpans ms' = membersWithoutSpans ms :=
  match ms, ms', h with
  | [], [], _ => rfl
  | _ :: _, _ :: _, ⟨hm, hms⟩ => by
    rw [membersWithoutSpans, membersWithoutSpans, Member.Matches.withoutSpans hm,
      membersWithoutSpans_of_membersMatch hms]

end

/-! ### A delegate between two items -/

namespace WrittenDelegate.IsWellFormed

variable {d : WrittenDelegate}

/-- A delegate does not begin with a semicolon. -/
theorem kind_ne_semicolon (h : d.IsWellFormed) (rest : List Token) :
    Stream.kind ⟨d.tokens ++ rest, 0⟩ ≠ .semicolon := by
  have hword : d.word.kind ≠ .semicolon := by rw [h.word]; nofun
  rw [tokens, head]
  cases hsections : d.sections with
  | nil =>
    cases hmodifiers : d.modifiers with
    | nil => exact hword
    | cons t modifiers =>
      obtain ⟨word, -, hkind⟩ := h.modifiers t (by rw [hmodifiers]; exact List.mem_cons_self)
      show t.kind ≠ .semicolon
      rw [hkind]
      nofun
  | cons group sections =>
    obtain ⟨opener, inner, rfl, hkind⟩ :=
      (h.sections group (by rw [hsections]; exact List.mem_cons_self)).starts
    show opener.kind ≠ .semicolon
    rw [hkind]
    nofun

/-- A delegate without constraints of a kind is skipped. -/
theorem skips (h : d.IsWellFormed)
    (hkinds : ∀ constraint ∈ d.constraints, ¬IsKindConstraint constraint) {source : List Char}
    (braced : Bool) (rest : List Token) (prevEnd : Nat) :
    Stream.Skips source braced ⟨d.tokens ++ rest, prevEnd⟩ ⟨rest, d.semicolon.span.stop⟩ := by
  have hclauses {clauses : List WrittenClause} (hwell : ∀ c ∈ clauses, c.IsWellFormed)
      (hkinds : ∀ constraint ∈ clauses.flatMap (·.constraints), ¬IsKindConstraint constraint) :
      IsOrdinary (clauses.flatMap (·.tokens)) := by
    induction clauses with
    | nil => exact .nil
    | cons c clauses ih =>
      obtain ⟨hc, hwell⟩ := List.forall_mem_cons.1 hwell
      rw [List.flatMap_cons, List.forall_mem_append] at hkinds
      exact (hc.isOrdinary hkinds.1).append (ih hwell hkinds.2)
  have hsemicolon : d.semicolon.kind.IsMark := h.semicolon ▸ ⟨by decide, rfl⟩
  obtain ⟨prevEnd', hskips⟩ : ∃ prevEnd', Stream.Skips source braced
      ⟨d.head ++ d.clauses.flatMap (·.tokens) ++ d.semicolon :: rest, prevEnd⟩
      ⟨d.semicolon :: rest, prevEnd'⟩ :=
    Stream.skips_of_isOrdinary (h.isOrdinary_head.append (hclauses h.clauses hkinds)) hsemicolon _
  have hall := hskips.trans (Stream.skips_mark hsemicolon prevEnd')
  rwa [tokens, List.append_assoc, List.singleton_append]

/-- A delegate with a constraint of a kind meets it. -/
theorem meetsKind (h : d.IsWellFormed)
    (hkind : ∃ constraint ∈ d.constraints, IsKindConstraint constraint) (rest : List Token) :
    MeetsKind (d.tokens ++ rest) := by
  obtain ⟨constraint, hmem, hkind⟩ := hkind
  obtain ⟨c, hc, hmem⟩ := List.mem_flatMap.1 hmem
  have hmeets : MeetsKind (d.clauses.flatMap (·.tokens) ++ d.semicolon :: rest) :=
    meetsKind_of_clauses h.clauses h.semicolon ⟨c, hc, constraint, hmem, hkind⟩
  simpa [tokens] using hmeets.behind h.isOrdinary_head

end WrittenDelegate.IsWellFormed

/-- **A delegate between two items** leaves the source readable exactly if none of its constraints
is `class` or `struct`, and then the source is read as before but for spans. -/
theorem SourceFile.parse_delegate_iff {I : Insertion} {front tail : List Token}
    {d : WrittenDelegate} {file : SourceFile} (hadds : I.Adds front d.tokens tail)
    (hplace : I.IsBetweenItems front tail) (hd : d.IsWellFormed)
    (hfile : SourceFile.parse (String.ofList I.source) = .ok file) :
    ((∃ file', SourceFile.parse (String.ofList I.changed) = .ok file') ↔
      ∀ constraint ∈ d.constraints, ¬IsKindConstraint constraint) ∧
    ∀ file', SourceFile.parse (String.ofList I.changed) = .ok file' →
      file'.withoutSpans = file.withoutSpans := by
  obtain ⟨braced, ordinal, prevEnd, hreaches⟩ := hplace.reaches
  rw [parse_of_tokenize hadds.source, String.toList_ofList] at hfile
  obtain ⟨b, hb, rfl⟩ := Lexer.eq_ok_of_map_eq_ok hfile
  rw [parse_of_tokenize hadds.changed, String.toList_ofList]
  obtain ⟨⟨ahead, prevEnd'⟩, b₀, rfl, hb₀, hdecides⟩ :=
    Insertion.isDecided_of_reaches (hd.kind_ne_semicolon _) hreaches
      ⟨rfl, front, rfl, hplace.ends⟩ _ _ hadds.beside_front hb
  by_cases hkind : ∃ constraint ∈ d.constraints, IsKindConstraint constraint
  · have hfails (file' : SourceFile) : (fun b ↦ (⟨b.usings, b.members⟩ : SourceFile)) <$>
        Stream.bodyOf I.changed false 0 ⟨front ++ (d.tokens ++ I.movedTail tail), 0⟩ ≠
          .ok file' := by
      intro hfile'
      obtain ⟨b', hb', -⟩ := Lexer.eq_ok_of_map_eq_ok hfile'
      exact hdecides.fails (Stream.bodyOf_ne_ok (hd.meetsKind hkind _) braced ordinal) b' hb'
    refine ⟨⟨fun ⟨file', hfile'⟩ ↦ absurd hfile' (hfails file'), fun hnone ↦ ?_⟩,
      fun file' hfile' ↦ absurd hfile' (hfails file')⟩
    obtain ⟨constraint, hmem, hkind⟩ := hkind
    exact absurd hkind (hnone constraint hmem)
  · have hkinds : ∀ constraint ∈ d.constraints, ¬IsKindConstraint constraint :=
      fun constraint hmem hconstraint ↦ hkind ⟨constraint, hmem, hconstraint⟩
    obtain ⟨b₀', hb₀', hagree₀⟩ := Insertion.exists_agree
      (hadds.beside_back prevEnd d.semicolon.span.stop) (Stream.bodyOf_eq_ok_iff.1 hb₀)
    rw [← (hd.skips hkinds braced _ prevEnd').bodyOf_eq] at hb₀'
    obtain ⟨b', hb', hagree⟩ := hdecides.agrees b₀' hb₀' hagree₀
    have hsame : SourceFile.withoutSpans ⟨b'.usings, b'.members⟩ =
        SourceFile.withoutSpans ⟨b.usings, b.members⟩ := by
      rw [SourceFile.withoutSpans, SourceFile.withoutSpans, usings_withoutSpan hagree.file.usings,
        membersWithoutSpans_of_membersMatch hagree.file.members]
    have hread : (fun b ↦ (⟨b.usings, b.members⟩ : SourceFile)) <$>
        Stream.bodyOf I.changed false 0 ⟨front ++ (d.tokens ++ I.movedTail tail), 0⟩ =
          .ok ⟨b'.usings, b'.members⟩ := by
      rw [hb']
      rfl
    refine ⟨⟨fun _ ↦ hkinds, fun _ ↦ ⟨_, hread⟩⟩, fun file' hfile' ↦ ?_⟩
    obtain rfl := Except.ok.inj (hread.symm.trans hfile')
    exact hsame

/-- The source `class A {} class B {}` and a delegate with the constraint `class` for a place
between the two types. -/
def classInsertion : Insertion where
  before := "class A {} ".toList
  inserted := "delegate void F<T>() where T : class; ".toList
  behind := "class B {}".toList

/-- The tokens of `class A {}` before the place. -/
def classFront : List Token :=
  [⟨.identifier "class", ⟨0, 5⟩⟩, ⟨.identifier "A", ⟨6, 7⟩⟩, ⟨.openBrace, ⟨8, 9⟩⟩,
    ⟨.closeBrace, ⟨9, 10⟩⟩]

/-- The tokens of `class B {}` behind the place. -/
def classTail : List Token :=
  [⟨.identifier "class", ⟨11, 16⟩⟩, ⟨.identifier "B", ⟨17, 18⟩⟩, ⟨.openBrace, ⟨19, 20⟩⟩,
    ⟨.closeBrace, ⟨20, 21⟩⟩, ⟨.endOfFile, ⟨21, 21⟩⟩]

/-- The delegate that is inserted. -/
def classDelegate : WrittenDelegate where
  sections := []
  modifiers := []
  word := ⟨.identifier "delegate", ⟨11, 19⟩⟩
  returned := [⟨.identifier "void", ⟨20, 24⟩⟩]
  name := ⟨.identifier "F", ⟨25, 26⟩⟩
  typeParameters := [⟨.less, ⟨26, 27⟩⟩, ⟨.identifier "T", ⟨27, 28⟩⟩, ⟨.greater, ⟨28, 29⟩⟩]
  parameters := [⟨.openParen, ⟨29, 30⟩⟩, ⟨.closeParen, ⟨30, 31⟩⟩]
  clauses := [{
    word := ⟨.identifier "where", ⟨32, 37⟩⟩
    parameter := ⟨.identifier "T", ⟨38, 39⟩⟩
    colon := ⟨.colon, ⟨40, 41⟩⟩
    first := [⟨.identifier "class", ⟨42, 47⟩⟩]
    later := [] }]
  semicolon := ⟨.semicolon, ⟨47, 48⟩⟩

theorem classDelegate_isWellFormed : classDelegate.IsWellFormed where
  sections := by simp [classDelegate]
  modifiers := by simp [classDelegate]
  word := rfl
  returned := isOrdinary_word rfl (by decide) .nil
  name := ⟨"F", rfl, by decide⟩
  typeParameters := .inr ⟨_, [⟨.identifier "T", ⟨27, 28⟩⟩], _, rfl, rfl,
    isOrdinary_word rfl (by decide) .nil, rfl⟩
  parameters := ⟨@IsGroup.mk _ _ [] rfl .nil, _, _, rfl, rfl⟩
  clauses := List.forall_mem_singleton.2
    { word := rfl
      parameter := ⟨"T", rfl, by decide⟩
      colon := rfl
      constraints := List.forall_mem_singleton.2 (.kind (.inl rfl))
      commas := by simp }
  semicolon := rfl

theorem classInsertion_adds : classInsertion.Adds classFront classDelegate.tokens classTail where
  source := eq_ok_of_toOption (by decide +kernel)
  changed := eq_ok_of_toOption (by decide +kernel)
  stop_le := by decide
  le_start := by decide

/-- The place is reached behind the first type. -/
theorem classInsertion_isBetweenItems : classInsertion.IsBetweenItems classFront classTail where
  ends := .inr ⟨[⟨.identifier "class", ⟨0, 5⟩⟩, ⟨.identifier "A", ⟨6, 7⟩⟩, ⟨.openBrace, ⟨8, 9⟩⟩],
    ⟨.closeBrace, ⟨9, 10⟩⟩, rfl, .inr (.inr rfl)⟩
  reaches := by
    have hfound : (Stream.typeDeclaration? classInsertion.source 0
        ⟨classFront ++ classTail, 0⟩).toOption =
          some (some ⟨⟨0, .classType, "A", [], [], [], [], ⟨6, 7⟩, ⟨0, 10⟩⟩, ⟨classTail, 10⟩⟩) := by
      decide +kernel
    exact ⟨false, 1, 10, .behindType ⟨rfl, by decide⟩ rfl rfl (eq_ok_of_toOption hfound) .here⟩

/-- Without the delegate the source is read, with it no longer. -/
theorem SourceFile.parse_delegate_iff_class :
    (∃ file, SourceFile.parse (String.ofList classInsertion.source) = .ok file) ∧
      ¬∃ file, SourceFile.parse (String.ofList classInsertion.changed) = .ok file := by
  obtain ⟨file, hfile⟩ : ∃ file,
      SourceFile.parse (String.ofList classInsertion.source) = .ok file :=
    exists_eq_ok_of_isOk (by decide +kernel)
  refine ⟨⟨file, hfile⟩, fun hread ↦ ?_⟩
  have hnone := (SourceFile.parse_delegate_iff classInsertion_adds classInsertion_isBetweenItems
    classDelegate_isWellFormed hfile).1.1 hread
  exact hnone [⟨.identifier "class", ⟨42, 47⟩⟩] (by simp [classDelegate,
    WrittenDelegate.constraints, WrittenClause.constraints]) ⟨_, rfl, .inl rfl⟩

/-- A source that is read no longer is once a well-formed delegate is inserted between two types. -/
theorem SourceFile.parse_delegate_fails :
    classDelegate.IsWellFormed ∧ classInsertion.IsBetweenItems classFront classTail ∧
      classInsertion.Adds classFront classDelegate.tokens classTail ∧
      (SourceFile.parse "class A {} class B {}").isOk = true ∧
      (SourceFile.parse "class A {} delegate void F<T>() where T : class; class B {}").isOk =
        false :=
  ⟨classDelegate_isWellFormed, classInsertion_isBetweenItems, classInsertion_adds,
    by decide +kernel, by decide +kernel⟩

end DoubleDispatch
