import DoubleDispatch.Parsing.Attribute
import DoubleDispatch.Text.Identifier

/-!
# Type headers

The header of a type declaration: attribute sections, modifiers, keyword, name, type parameters,
base list and constraints, up to the end of its body. As long as the keyword has not been seen the
parser may find that there is no declaration here; from then on a malformed header is a fault.
-/

namespace DoubleDispatch

namespace Stream

/-- The words that may stand before the keyword of a type. -/
def modifierWords : List String :=
  ["public", "private", "protected", "internal", "file", "static", "abstract", "sealed", "partial",
    "readonly", "ref", "unsafe", "new", "virtual", "override", "extern", "async", "const",
    "volatile", "required"]

/-- The modifiers ahead. -/
def readModifiers (prevEnd : Nat) : List Token → Parsed (List String)
  | ⟨.identifier word, span⟩ :: ts =>
    if modifierWords.contains word then
      let later := readModifiers span.stop ts
      ⟨word :: later.value, later.rest⟩
    else ⟨[], ⟨⟨.identifier word, span⟩ :: ts, prevEnd⟩⟩
  | ts => ⟨[], ⟨ts, prevEnd⟩⟩

theorem size_readModifiers_le (prevEnd : Nat) (ts : List Token) :
    (readModifiers prevEnd ts).rest.size ≤ ts.length := by
  fun_induction readModifiers prevEnd ts with
  | case1 _ _ _ _ _ _ ih => exact Nat.le_succ_of_le ih
  | case2 => exact Nat.le_refl _
  | case3 => exact Nat.le_refl _

/-- The keyword of a type declaration. `record` is one only before a further word. -/
def typeKeyword? (s : Stream) : Option (Parsed TypeKind) :=
  match s.kind.name? with
  | some "class" => some ⟨.classType, s.advance⟩
  | some "struct" => some ⟨.structType, s.advance⟩
  | some "interface" => some ⟨.interfaceType, s.advance⟩
  | some "enum" => some ⟨.enumType, s.advance⟩
  | some "record" =>
    match s.secondKind.name? with
    | some "struct" => some ⟨.recordStruct, s.advance.advance⟩
    | some "class" => some ⟨.recordType, s.advance.advance⟩
    | some _ => some ⟨.recordType, s.advance⟩
    | none => none
  | _ => none

/-- A keyword is one word, or `record` and a word behind it. -/
theorem exists_word_of_typeKeyword? {s : Stream} {kind : Parsed TypeKind}
    (h : s.typeKeyword? = some kind) :
    ∃ word ∈ ["class", "struct", "interface", "enum", "record"], s.kind.name? = some word ∧
      (kind.rest = s.advance ∨
        kind.rest = s.advance.advance ∧ ∃ second, s.secondKind.name? = some second) := by
  unfold typeKeyword? at h
  split at h
  next hword => cases h; exact ⟨_, by decide, hword, .inl rfl⟩
  next hword => cases h; exact ⟨_, by decide, hword, .inl rfl⟩
  next hword => cases h; exact ⟨_, by decide, hword, .inl rfl⟩
  next hword => cases h; exact ⟨_, by decide, hword, .inl rfl⟩
  next hword =>
    split at h
    next hsecond => cases h; exact ⟨_, by decide, hword, .inr ⟨rfl, _, hsecond⟩⟩
    next hsecond => cases h; exact ⟨_, by decide, hword, .inr ⟨rfl, _, hsecond⟩⟩
    next => cases h; exact ⟨_, by decide, hword, .inl rfl⟩
    next => cases h
  next => cases h

theorem size_typeKeyword?_lt {s : Stream} {kind : Parsed TypeKind}
    (h : s.typeKeyword? = some kind) : kind.rest.size < s.size := by
  obtain ⟨word, -, hword, hrest | ⟨hrest, -⟩⟩ := exists_word_of_typeKeyword? h
  · rw [hrest]
    exact size_advance_lt (kind_ne_endOfFile_of_name? hword)
  · rw [hrest]
    exact Nat.lt_of_le_of_lt (size_advance_le _)
      (size_advance_lt (kind_ne_endOfFile_of_name? hword))

/-- The type parameters behind the opening angle bracket: the last identifier before each comma
and before the closing bracket, so that variance words and attributes are passed over. -/
def typeParameters (last : Option String) (s : Stream) :
    Except ParseError (Parsed (List String)) :=
  if h : s.kind = .endOfFile then .error (s.unexpected .typeParameter) else
  have := size_advance_lt h
  match s.kind with
  | .identifier name => typeParameters (some name) s.advance
  | .openBracket =>
    match hg : s.skipGroup with
    | .error e => .error e
    | .ok next =>
      have := size_skipGroup_lt hg
      typeParameters last next
  | .comma =>
    match last with
    | none => .error (s.unexpected .typeParameter)
    | some name =>
      match typeParameters none s.advance with
      | .error e => .error e
      | .ok later => .ok ⟨name :: later.value, later.rest⟩
  | .greater =>
    match last with
    | none => .error (s.unexpected .typeParameter)
    | some name => .ok ⟨[name], s.advance⟩
  | _ => .error (s.unexpected .typeParameter)
termination_by s.size

theorem size_typeParameters_le {last : Option String} {s : Stream}
    {names : Parsed (List String)} (h : typeParameters last s = .ok names) :
    names.rest.size ≤ s.size := by
  fun_induction typeParameters last s generalizing names with
  | case1 => cases h
  | case2 _ _ _ hlt _ _ ih => exact Nat.le_trans (ih h) (Nat.le_of_lt hlt)
  | case3 => cases h
  | case4 _ _ _ _ _ _ _ hlt ih => exact Nat.le_trans (ih h) (Nat.le_of_lt hlt)
  | case5 => cases h
  | case6 => cases h
  | case7 _ _ hlt _ _ later hl ih =>
    have hle := ih hl
    cases h
    exact Nat.le_trans hle (Nat.le_of_lt hlt)
  | case8 => cases h
  | case9 _ _ hlt => cases h; exact Nat.le_of_lt hlt
  | case10 => cases h

/-- The list of type parameters, if there is one. -/
def typeParameterList (s : Stream) : Except ParseError (Parsed (List String)) :=
  if s.kind = .less then typeParameters none s.advance else .ok ⟨[], s⟩

/-- Takes the parameters of a primary constructor, if there are any. -/
def skipParameters (s : Stream) : Except ParseError Stream :=
  if s.kind = .openParen then s.skipGroup else .ok s

theorem size_typeParameterList_le {s : Stream} {names : Parsed (List String)}
    (h : s.typeParameterList = .ok names) : names.rest.size ≤ s.size := by
  unfold typeParameterList at h
  split at h
  · exact Nat.le_trans (size_typeParameters_le h) s.size_advance_le
  · cases h; exact Nat.le_refl _

theorem size_skipParameters_le {s next : Stream} (h : s.skipParameters = .ok next) :
    next.size ≤ s.size := by
  unfold skipParameters at h
  split at h
  · exact Nat.le_of_lt (size_skipGroup_lt h)
  · cases h; exact Nat.le_refl _

/-! ### Base lists -/

/-- How far a base entry has been read: where its text ends if the arguments of a base constructor
have been met, the number of open angle brackets, and whether anything was taken. -/
structure EntryState where
  textEnd : Option Nat
  angles : Nat
  started : Bool
deriving DecidableEq, Repr, Inhabited

/-- Whether a token of this kind stands behind the entry. -/
def EntryState.endsAt (st : EntryState) (kind : TokenKind) : Bool :=
  st.angles == 0 &&
    (kind == .comma || kind == .openBrace || kind == .semicolon ||
      (kind.isWord "where" && st.started))

/-- Reads a base entry to its end. -/
def readEntry (st : EntryState) (s : Stream) : Except ParseError (Parsed EntryState) :=
  if h : s.kind = .endOfFile then .ok ⟨st, s⟩ else
  have := size_advance_lt h
  match s.kind with
  | .less => readEntry ⟨st.textEnd, st.angles + 1, true⟩ s.advance
  | .greater => readEntry ⟨st.textEnd, st.angles - 1, true⟩ s.advance
  | .openParen =>
    match hg : s.skipGroup with
    | .error e => .error e
    | .ok next =>
      have := size_skipGroup_lt hg
      let textEnd := if st.angles = 0 then st.textEnd <|> some s.prevEnd else st.textEnd
      readEntry ⟨textEnd, st.angles, true⟩ next
  | .openBracket =>
    match hg : s.skipGroup with
    | .error e => .error e
    | .ok next =>
      have := size_skipGroup_lt hg
      readEntry { st with started := true } next
  | kind =>
    if st.endsAt kind then .ok ⟨st, s⟩ else readEntry { st with started := true } s.advance
termination_by s.size

theorem size_readEntry_le {st : EntryState} {s : Stream} {entry : Parsed EntryState}
    (h : readEntry st s = .ok entry) : entry.rest.size ≤ s.size := by
  fun_induction readEntry st s with
  | case1 => cases h; exact Nat.le_refl _
  | case2 _ _ _ hlt _ ih => exact Nat.le_trans (ih h) (Nat.le_of_lt hlt)
  | case3 _ _ _ hlt _ ih => exact Nat.le_trans (ih h) (Nat.le_of_lt hlt)
  | case4 => cases h
  | case5 _ _ _ _ _ _ _ hlt _ ih => exact Nat.le_trans (ih h) (Nat.le_of_lt hlt)
  | case6 => cases h
  | case7 _ _ _ _ _ _ _ hlt ih => exact Nat.le_trans (ih h) (Nat.le_of_lt hlt)
  | case8 => cases h; exact Nat.le_refl _
  | case9 _ _ _ hlt _ _ _ _ _ ih => exact Nat.le_trans (ih h) (Nat.le_of_lt hlt)

/-- The entries of a base list. The arguments of a base constructor do not belong to the text of an
entry; an entry that starts with them has the empty text if no gap stands before it. -/
def baseEntries (source : List Char) (s : Stream) : Except ParseError (Parsed (List BaseEntry)) :=
  match h : readEntry ⟨none, 0, false⟩ s with
  | .error e => .error e
  | .ok entry =>
    let span : Span := ⟨s.start, entry.value.textEnd.getD entry.rest.prevEnd⟩
    if !entry.value.started then .error (entry.rest.unexpected .baseType)
    else if span.stop < span.start then .error (.backwardEntry span)
    else
      let base : BaseEntry :=
        ⟨String.ofList (Text.trim (Text.slice span.start span.stop source)), span⟩
      if hc : entry.rest.kind = .comma then
        have : entry.rest.advance.size < entry.rest.size := size_advance_lt (by simp [hc])
        have := size_readEntry_le h
        match baseEntries source entry.rest.advance with
        | .error e => .error e
        | .ok later => .ok ⟨base :: later.value, later.rest⟩
      else .ok ⟨[base], entry.rest⟩
termination_by s.size

theorem size_baseEntries_le {source : List Char} {s : Stream} {bases : Parsed (List BaseEntry)}
    (h : baseEntries source s = .ok bases) : bases.rest.size ≤ s.size := by
  fun_induction baseEntries source s generalizing bases with
  | case1 => cases h
  | case2 => cases h
  | case3 => cases h
  | case4 => cases h
  | case5 =>
    rename_i hlt hle later hl ih
    have hle' := ih hl
    cases h
    exact Nat.le_trans hle' (Nat.le_trans (Nat.le_of_lt hlt) hle)
  | case6 _ _ he => cases h; exact size_readEntry_le he

/-- The base list, if there is one. -/
def baseList (source : List Char) (s : Stream) : Except ParseError (Parsed (List BaseEntry)) :=
  if s.kind = .colon then baseEntries source s.advance else .ok ⟨[], s⟩

theorem size_baseList_le {source : List Char} {s : Stream} {bases : Parsed (List BaseEntry)}
    (h : s.baseList source = .ok bases) : bases.rest.size ≤ s.size := by
  unfold baseList at h
  split at h
  · exact Nat.le_trans (size_baseEntries_le h) s.size_advance_le
  · cases h; exact Nat.le_refl _

/-! ### Constraints and body -/

/-- Behind the constraint clauses, from the inside of one. -/
def skipConstraints (s : Stream) : Except ParseError Stream :=
  if h : s.kind = .endOfFile then .ok s else
  have := size_advance_lt h
  match s.kind with
  | .openBrace | .semicolon => .ok s
  | .openParen | .openBracket =>
    match hg : s.skipGroup with
    | .error e => .error e
    | .ok next =>
      have := size_skipGroup_lt hg
      skipConstraints next
  | _ => skipConstraints s.advance
termination_by s.size

theorem size_skipConstraints_le {s next : Stream} (h : s.skipConstraints = .ok next) :
    next.size ≤ s.size := by
  fun_induction skipConstraints s with
  | case1 => cases h; exact Nat.le_refl _
  | case2 => cases h; exact Nat.le_refl _
  | case3 => cases h; exact Nat.le_refl _
  | case4 => cases h
  | case5 _ _ _ _ _ _ hlt ih => exact Nat.le_trans (ih h) (Nat.le_of_lt hlt)
  | case6 => cases h
  | case7 _ _ _ _ _ _ hlt ih => exact Nat.le_trans (ih h) (Nat.le_of_lt hlt)
  | case8 _ _ hlt _ _ _ _ ih => exact Nat.le_trans (ih h) (Nat.le_of_lt hlt)

/-- Behind the constraint clauses, if there are any. -/
def constraints (s : Stream) : Except ParseError Stream :=
  if s.kind.isWord "where" then skipConstraints s.advance else .ok s

/-- Behind the body of the type called `name`. -/
def typeBody (name : String) (s : Stream) : Except ParseError Stream :=
  match s.kind with
  | .openBrace => (·.eat .semicolon) <$> s.skipGroup
  | .semicolon => .ok s.advance
  | _ => .error (s.unexpected (.typeBody name))

theorem size_constraints_le {s next : Stream} (h : s.constraints = .ok next) :
    next.size ≤ s.size := by
  unfold constraints at h
  split at h
  · exact Nat.le_trans (size_skipConstraints_le h) s.size_advance_le
  · cases h; exact Nat.le_refl _

/-- The body of a type is a group in braces and a semicolon that may follow, or a semicolon. -/
theorem typeBody_eq_ok_iff {name : String} {s last : Stream} : s.typeBody name = .ok last ↔
    (s.kind = .openBrace ∧ ∃ next, s.skipGroup = .ok next ∧ last = next.eat .semicolon) ∨
      (s.kind = .semicolon ∧ last = s.advance) := by
  rw [typeBody]
  split
  next hbrace =>
    cases s.skipGroup with
    | error e => simp [hbrace, Functor.map, Except.map]
    | ok next => simp [hbrace, Functor.map, Except.map, eq_comm]
  next hsemicolon => simp [hsemicolon, eq_comm]
  next hbrace hsemicolon =>
    exact ⟨nofun, fun h ↦ h.elim (absurd ·.1 hbrace) (absurd ·.1 hsemicolon)⟩

theorem size_typeBody_le {name : String} {s last : Stream} (h : s.typeBody name = .ok last) :
    last.size ≤ s.size := by
  rcases typeBody_eq_ok_iff.1 h with ⟨-, next, hskip, rfl⟩ | ⟨-, rfl⟩
  · exact Nat.le_trans (next.size_eat_le _) (Nat.le_of_lt (size_skipGroup_lt hskip))
  · exact s.size_advance_le

/-! ### Declarations -/

/-- What stands before the name of a type. -/
structure HeaderStart where
  sections : List AttributeSection
  modifiers : List String
  kind : TypeKind
deriving DecidableEq, Repr, Inhabited

/-- What stands before the name of a type, if a type is declared here. -/
def headerStart? (source : List Char) (s : Stream) : Option (Parsed HeaderStart) :=
  match sections? source s with
  | none => none
  | some sections =>
    let modifiers := readModifiers sections.rest.prevEnd sections.rest.ahead
    match modifiers.rest.typeKeyword? with
    | none => none
    | some kind => some ⟨⟨sections.value, modifiers.value, kind.value⟩, kind.rest⟩

/-- The declaration whose keyword has been read. -/
def declarator (source : List Char) (ordinal start : Nat) (header : HeaderStart) (s : Stream) :
    Except ParseError (Parsed TypeDeclaration) :=
  match s.kind.name? with
  | none => .error (s.unexpected (.typeName header.kind))
  | some name => do
    let typeParameters ← typeParameterList s.advance
    let bases ← baseList source (← skipParameters typeParameters.rest)
    let next ← typeBody name (← constraints bases.rest)
    return {
      value := {
        ordinal
        kind := header.kind
        name
        typeParameters := typeParameters.value
        modifiers := header.modifiers
        sections := header.sections
        bases := bases.value
        nameSpan := s.span
        span := ⟨start, next.prevEnd⟩
      }
      rest := next
    }

/-- The type declaration that starts here, if one does. -/
def typeDeclaration? (source : List Char) (ordinal : Nat) (s : Stream) :
    Except ParseError (Option (Parsed TypeDeclaration)) :=
  match headerStart? source s with
  | none => .ok none
  | some header => some <$> declarator source ordinal s.start header.value header.rest

/-- Before the name of a type stand sections, modifiers and a keyword. -/
theorem headerStart?_eq_some_iff {source : List Char} {s : Stream} {header : Parsed HeaderStart} :
    s.headerStart? source = some header ↔ ∃ sections kind,
      s.sections? source = some sections ∧
      (readModifiers sections.rest.prevEnd sections.rest.ahead).rest.typeKeyword? = some kind ∧
      header = ⟨⟨sections.value, (readModifiers sections.rest.prevEnd sections.rest.ahead).value,
        kind.value⟩, kind.rest⟩ := by
  constructor
  · intro h
    simp only [headerStart?] at h
    split at h
    · cases h
    next sections hsections =>
      split at h
      · cases h
      next kind hkind => exact ⟨sections, kind, hsections, hkind, (Option.some.inj h).symm⟩
  · rintro ⟨sections, kind, hsections, hkind, rfl⟩
    simp only [headerStart?, hsections, hkind]

theorem size_headerStart?_lt {source : List Char} {s : Stream} {header : Parsed HeaderStart}
    (h : s.headerStart? source = some header) : header.rest.size < s.size := by
  obtain ⟨sections, kind, hsections, hkind, rfl⟩ := headerStart?_eq_some_iff.1 h
  exact Nat.lt_of_lt_of_le (size_typeKeyword?_lt hkind)
    (Nat.le_trans (size_readModifiers_le _ _) (size_sections?_le hsections))

/-- Behind the keyword of a type stand a name, type parameters, parameters, base entries,
constraints and a body. -/
theorem declarator_eq_ok_iff {source : List Char} {ordinal start : Nat} {header : HeaderStart}
    {s : Stream} {d : Parsed TypeDeclaration} :
    s.declarator source ordinal start header = .ok d ↔
      ∃ name parameters mark bases behind last, s.kind.name? = some name ∧
        s.advance.typeParameterList = .ok parameters ∧ parameters.rest.skipParameters = .ok mark ∧
        mark.baseList source = .ok bases ∧ bases.rest.constraints = .ok behind ∧
        behind.typeBody name = .ok last ∧
        d = {
          value := {
            ordinal
            kind := header.kind
            name
            typeParameters := parameters.value
            modifiers := header.modifiers
            sections := header.sections
            bases := bases.value
            nameSpan := s.span
            span := ⟨start, last.prevEnd⟩
          }
          rest := last
        } := by
  constructor
  · intro h
    rw [declarator] at h
    split at h
    · cases h
    next name hname =>
      obtain ⟨parameters, hparameters, h⟩ := exists_of_bind_eq_ok h
      obtain ⟨mark, hmark, h⟩ := exists_of_bind_eq_ok h
      obtain ⟨bases, hbases, h⟩ := exists_of_bind_eq_ok h
      obtain ⟨behind, hbehind, h⟩ := exists_of_bind_eq_ok h
      obtain ⟨last, hlast, h⟩ := exists_of_bind_eq_ok h
      exact ⟨name, parameters, mark, bases, behind, last, hname, hparameters, hmark, hbases,
        hbehind, hlast, (Except.ok.inj h).symm⟩
  · rintro ⟨name, parameters, mark, bases, behind, last, hname, hparameters, hmark, hbases,
      hbehind, hlast, rfl⟩
    simp only [declarator, hname, hparameters, hmark, hbases, hbehind, hlast, bind, Except.bind,
      pure, Except.pure]

theorem size_declarator_le {source : List Char} {ordinal start : Nat} {header : HeaderStart}
    {s : Stream} {d : Parsed TypeDeclaration}
    (h : s.declarator source ordinal start header = .ok d) : d.rest.size ≤ s.size := by
  obtain ⟨name, parameters, mark, bases, behind, last, -, hparameters, hmark, hbases, hbehind,
    hlast, rfl⟩ := declarator_eq_ok_iff.1 h
  calc last.size
      ≤ behind.size := size_typeBody_le hlast
    _ ≤ bases.rest.size := size_constraints_le hbehind
    _ ≤ mark.size := size_baseList_le hbases
    _ ≤ parameters.rest.size := size_skipParameters_le hmark
    _ ≤ s.advance.size := size_typeParameterList_le hparameters
    _ ≤ s.size := s.size_advance_le

theorem size_typeDeclaration?_lt {source : List Char} {ordinal : Nat} {s : Stream}
    {d : Parsed TypeDeclaration} (h : s.typeDeclaration? source ordinal = .ok (some d)) :
    d.rest.size < s.size := by
  unfold typeDeclaration? at h
  split at h
  · cases h
  next header hh =>
    cases hd : declarator source ordinal s.start header.value header.rest with
    | error e => rw [hd] at h; cases h
    | ok d' =>
      rw [hd] at h
      cases h
      exact Nat.lt_of_le_of_lt (size_declarator_le hd) (size_headerStart?_lt hh)

end Stream

end DoubleDispatch
