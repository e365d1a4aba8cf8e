import Mathlib.Logic.Basic
import DoubleDispatch.Proofs.Parsing.Body

/-!
# Tokens that stand elsewhere or have other names

A parser compares offsets with each other only, and identifiers only with the words it gives meaning
to. So if a source is put behind some text, and if in its tokens other identifiers are renamed, then
each parser does the same, success and failure alike, with offsets moved and names renamed
(`Relabeling`). There is one equation for each parser.
-/

namespace DoubleDispatch

/-- The words that the parser gives a meaning to in some place. -/
def parserWords : List String :=
  ["using", "namespace", "global", "class", "struct", "interface", "enum", "record", "where",
    "assembly", "module"] ++ Stream.modifierWords

/-- Text before a source, types before those of a source, and other names for its identifiers, but
for the words that the parser gives a meaning to. -/
structure Relabeling where
  before : List Char
  ordinals : Nat
  rename : String → String
  keeps : ∀ word ∈ parserWords, rename word = word
  avoids : ∀ word, rename word ∈ parserWords → word ∈ parserWords

namespace Relabeling

open Text (byteLength)

/-! ### What becomes of tokens, streams and errors -/

variable (φ : Relabeling)

def offset (n : Nat) : Nat := n + byteLength φ.before

def span (span : Span) : Span := ⟨φ.offset span.start, φ.offset span.stop⟩

def kind : TokenKind → TokenKind
  | .identifier name => .identifier (φ.rename name)
  | kind => kind

def token (t : Token) : Token := ⟨φ.kind t.kind, φ.span t.span⟩

def stream (s : Stream) : Stream := ⟨s.ahead.map φ.token, φ.offset s.prevEnd⟩

def parsed {α β : Type} (f : α → β) (p : Parsed α) : Parsed β := ⟨f p.value, φ.stream p.rest⟩

def expectation : Expectation → Expectation
  | .token kind => .token (φ.kind kind)
  | .typeBody name => .typeBody (φ.rename name)
  | expected => expected

def fault : ParseFault → ParseFault
  | .unexpected expected found => .unexpected (φ.expectation expected) (φ.kind found)
  | fault => fault

def error : ParseError → ParseError
  | .rejected fault span => .rejected (φ.fault fault) (φ.span span)
  | .backwardEntry span => .backwardEntry (φ.span span)

/-- A failure stays one, with its offsets moved and its names renamed. -/
def result {α β : Type} (f : α → β) : Except ParseError α → Except ParseError β
  | .ok a => .ok (f a)
  | .error e => .error (φ.error e)

variable {φ}

@[simp] theorem parsed_value {α β : Type} (f : α → β) (p : Parsed α) :
    (φ.parsed f p).value = f p.value := rfl

@[simp] theorem parsed_rest {α β : Type} (f : α → β) (p : Parsed α) :
    (φ.parsed f p).rest = φ.stream p.rest := rfl

/-- Parsers in sequence may be relabelled one after the other. -/
theorem result_bind {α β γ δ : Type} {f : α → β} {g : γ → δ} {h : α → Except ParseError γ}
    {h' : β → Except ParseError δ} (hh : ∀ a, h' (f a) = φ.result g (h a))
    (x : Except ParseError α) : φ.result f x >>= h' = φ.result g (x >>= h) := by
  cases x with
  | error e => rfl
  | ok a => exact hh a

/-! ### Kinds of token -/

section Kinds

variable (kind : TokenKind)

/-- An identifier is renamed, and nothing else becomes one. -/
theorem name?_kind : (φ.kind kind).name? = kind.name?.map φ.rename := by
  cases kind <;> rfl

theorem closer?_kind : (φ.kind kind).closer? = kind.closer? := by
  cases kind <;> rfl

theorem isCloser_kind : (φ.kind kind).isCloser = kind.isCloser := by
  cases kind <;> rfl

/-- How far a name has been read does not depend on the words in it. -/
theorem next?_kind (st : Stream.NameState) : st.next? (φ.kind kind) = st.next? kind := by
  cases kind <;> rfl

variable {kind}

/-- A token that is not an identifier stays what it is, and no other becomes one like it. -/
theorem kind_eq_iff {mark : TokenKind} (h : mark.name? = none) :
    φ.kind kind = mark ↔ kind = mark := by
  cases kind with
  | identifier name =>
    refine iff_of_false ?_ ?_ <;> (rintro rfl; cases h)
  | _ => rfl

theorem beq_kind {mark : TokenKind} (h : mark.name? = none) :
    (φ.kind kind == mark) = (kind == mark) := by
  rw [Bool.eq_iff_iff, beq_iff_eq, beq_iff_eq, kind_eq_iff h]

/-- The words that the parser gives a meaning to are renamed to themselves, and no other word to
them. -/
theorem rename_eq_iff {name word : String} (h : word ∈ parserWords) :
    φ.rename name = word ↔ name = word := by
  constructor
  · rintro rfl
    exact (φ.keeps name (φ.avoids name h)).symm
  · rintro rfl
    exact φ.keeps name h

/-- A token is a word with a meaning exactly if it was before. -/
theorem kind_eq_word_iff {word : String} (h : word ∈ parserWords) :
    φ.kind kind = .identifier word ↔ kind = .identifier word := by
  cases kind with
  | identifier name => simp only [Relabeling.kind, TokenKind.identifier.injEq, rename_eq_iff h]
  | _ => rfl

/-- Asking for a word with a meaning has the same answer. -/
theorem isWord_kind {word : String} (h : word ∈ parserWords) :
    (φ.kind kind).isWord word = kind.isWord word := by
  rw [TokenKind.isWord, TokenKind.isWord, Bool.eq_iff_iff, beq_iff_eq, beq_iff_eq,
    kind_eq_word_iff h]

end Kinds

/-! ### Streams -/

section Streams

variable (s : Stream)

/-- The token ahead is the one that was ahead, with its name changed. -/
theorem kind_stream : (φ.stream s).kind = φ.kind s.kind := by
  obtain ⟨_ | ⟨t, ts⟩, prevEnd⟩ := s <;> rfl

theorem secondKind_stream : (φ.stream s).secondKind = φ.kind s.secondKind := by
  obtain ⟨_ | ⟨t, _ | ⟨u, ts⟩⟩, prevEnd⟩ := s <;> rfl

/-- The span ahead is moved. -/
theorem span_stream : (φ.stream s).span = φ.span s.span := by
  obtain ⟨_ | ⟨t, ts⟩, prevEnd⟩ := s <;> rfl

theorem start_stream : (φ.stream s).start = φ.offset s.start := by
  rw [Stream.start, span_stream]
  rfl

/-- A mark is ahead exactly if it was before. -/
theorem kind_stream_eq_iff {mark : TokenKind} (h : mark.name? = none) :
    (φ.stream s).kind = mark ↔ s.kind = mark := by
  rw [kind_stream, kind_eq_iff h]

/-- A word with a meaning is ahead exactly if it was before. -/
theorem isWord_stream {word : String} (h : word ∈ parserWords) :
    (φ.stream s).kind.isWord word = s.kind.isWord word := by
  rw [kind_stream, isWord_kind h]

/-- Taking a token and relabelling can be done in either order. -/
theorem advance_stream : (φ.stream s).advance = φ.stream s.advance := by
  by_cases hend : s.kind = .endOfFile
  · rw [Stream.advance_of_endOfFile hend,
      Stream.advance_of_endOfFile ((φ.kind_stream_eq_iff s rfl).2 hend)]
  · obtain ⟨_ | ⟨t, ts⟩, prevEnd⟩ := s
    · exact absurd rfl hend
    · have hend' : (φ.token t).kind ≠ .endOfFile := fun h ↦ hend ((kind_eq_iff rfl).1 h)
      rw [Stream.advance_cons hend]
      exact Stream.advance_cons hend' _ _

/-- A token is taken exactly if it was before. -/
theorem eat_stream {mark : TokenKind} (h : φ.kind s.kind = mark ↔ s.kind = mark) :
    (φ.stream s).eat mark = φ.stream (s.eat mark) := by
  rw [Stream.eat, Stream.eat, kind_stream, if_congr h rfl rfl, advance_stream]
  exact (apply_ite φ.stream _ _ _).symm

/-- The fault at an unexpected token has the other names and the moved span. -/
theorem unexpected_stream (expected : Expectation) :
    (φ.stream s).unexpected (φ.expectation expected) = φ.error (s.unexpected expected) := by
  rw [Stream.unexpected, Stream.unexpected, kind_stream, span_stream]
  rfl

end Streams

end Relabeling

/-! ### Declarations -/

section Relabel

variable (φ : Relabeling)

def Attribute.relabel (a : Attribute) : Attribute := ⟨a.name, φ.span a.span⟩

def AttributeSection.relabel (a : AttributeSection) : AttributeSection :=
  ⟨a.target.map φ.rename, a.attributes.map (.relabel φ), φ.span a.span⟩

def BaseEntry.relabel (base : BaseEntry) : BaseEntry := ⟨base.text, φ.span base.span⟩

def UsingKind.relabel : UsingKind → UsingKind
  | .alias name => .alias (φ.rename name)
  | kind => kind

def UsingDirective.relabel (u : UsingDirective) : UsingDirective :=
  ⟨u.kind.relabel φ, u.target, u.isGlobal, φ.span u.span⟩

def Stream.HeaderStart.relabel (start : Stream.HeaderStart) : Stream.HeaderStart :=
  ⟨start.sections.map (.relabel φ), start.modifiers, start.kind⟩

def TypeDeclaration.relabel (d : TypeDeclaration) : TypeDeclaration where
  ordinal := d.ordinal + φ.ordinals
  kind := d.kind
  name := φ.rename d.name
  typeParameters := d.typeParameters.map φ.rename
  modifiers := d.modifiers
  sections := d.sections.map (.relabel φ)
  bases := d.bases.map (.relabel φ)
  nameSpan := φ.span d.nameSpan
  span := φ.span d.span

end Relabel

namespace Stream

variable {φ : Relabeling}

/-! ### Groups -/

/-- A group that is open in tokens that are relabelled. -/
def OpenGroup.relabel (φ : Relabeling) (group : OpenGroup) : OpenGroup :=
  ⟨φ.kind group.closer, φ.span group.opened⟩

/-- The span of the innermost open group is moved. -/
theorem opened_relabel (groups : List OpenGroup) (span : Span) :
    ((groups.map (OpenGroup.relabel φ)).head?.map (·.opened)).getD (φ.span span) =
      φ.span ((groups.head?.map (·.opened)).getD span) := by
  cases groups <;> rfl

/-- A token opens, closes or misses a group as before: groups are told by delimiters, which have no
names. -/
theorem groupsAfter_relabel (groups : List OpenGroup) (t : Token) :
    groupsAfter (groups.map (OpenGroup.relabel φ)) (φ.token t) =
      φ.result (List.map (OpenGroup.relabel φ)) (groupsAfter groups t) := by
  have hkind : (φ.token t).kind = φ.kind t.kind := rfl
  unfold groupsAfter
  rw [hkind, Relabeling.closer?_kind, Relabeling.isCloser_kind]
  cases hopener : t.kind.closer? with
  | some closer =>
    have hcloser : φ.kind closer = closer := by
      revert hopener
      cases t.kind <;> rintro ⟨⟩ <;> rfl
    have hgroup : OpenGroup.relabel φ ⟨closer, t.span⟩ = ⟨closer, φ.span t.span⟩ :=
      congrArg (OpenGroup.mk · _) hcloser
    exact congrArg (fun group ↦ Except.ok (group :: groups.map (OpenGroup.relabel φ))) hgroup.symm
  | none =>
    dsimp only
    by_cases hcloser : t.kind.isCloser
    · have hname : t.kind.name? = none := by
        revert hcloser
        cases t.kind <;> rintro ⟨⟩ <;> rfl
      have hfixed : φ.kind t.kind = t.kind := (Relabeling.kind_eq_iff hname).2 rfl
      rw [if_pos hcloser, if_pos hcloser]
      cases groups with
      | nil => rfl
      | cons group outer =>
        have hiff : φ.kind group.closer = φ.kind t.kind ↔ group.closer = t.kind := by
          rw [hfixed]
          exact Relabeling.kind_eq_iff hname
        by_cases hsame : group.closer = t.kind
        · dsimp only
          rw [if_pos hsame]
          exact if_pos (hiff.2 hsame)
        · dsimp only
          rw [if_neg hsame]
          exact if_neg (mt hiff.1 hsame)
    · rw [if_neg hcloser, if_neg hcloser, if_congr (Relabeling.kind_eq_iff rfl) rfl rfl]
      split
      · exact congrArg (fun span ↦ Except.error (ParseError.rejected .unclosedDelimiter span))
          (opened_relabel groups t.span)
      · rfl

/-- **Groups are skipped alike**, or the same fault is found, by induction on the tokens. -/
theorem skipGroups_relabel (groups : List OpenGroup) (prevEnd : Nat) (ts : List Token) :
    skipGroups (groups.map (OpenGroup.relabel φ)) (φ.offset prevEnd) (ts.map φ.token) =
      φ.result φ.stream (skipGroups groups prevEnd ts) := by
  fun_induction skipGroups groups prevEnd ts with
  | case1 groups prevEnd =>
    exact congrArg (fun span ↦ Except.error (ParseError.rejected .unclosedDelimiter span))
      (opened_relabel groups ⟨prevEnd, prevEnd⟩)
  | case2 groups prevEnd t ts e hgroups =>
    rw [List.map_cons, skipGroups, groupsAfter_relabel, hgroups]
    rfl
  | case3 groups prevEnd t ts hgroups =>
    rw [List.map_cons, skipGroups, groupsAfter_relabel, hgroups]
    rfl
  | case4 groups prevEnd t ts group outer hgroups ih =>
    rw [List.map_cons, skipGroups, groupsAfter_relabel, hgroups]
    exact ih

/-- A group is skipped alike. -/
theorem skipGroup_relabel (s : Stream) :
    (φ.stream s).skipGroup = φ.result φ.stream s.skipGroup :=
  skipGroups_relabel [] s.prevEnd s.ahead

/-! ### Names -/

/-- A dotted name is read with its identifiers renamed. -/
theorem identifiers_relabel (prevEnd : Nat) (ts : List Token) :
    identifiers (φ.offset prevEnd) (ts.map φ.token) =
      φ.result (φ.parsed (List.map φ.rename)) (identifiers prevEnd ts) := by
  fun_induction identifiers prevEnd ts with
  | case1 prevEnd name span dotSpan ts ih =>
    have hdot : φ.offset dotSpan.stop = (φ.span dotSpan).stop := rfl
    rw [hdot] at ih
    refine (congrArg (· >>= _) ih).trans (Relabeling.result_bind (fun names ↦ ?_) _)
    rfl
  | case2 prevEnd name span ts hdot =>
    have hkind : Stream.kind ⟨ts.map φ.token, φ.offset span.stop⟩ ≠ .dot := by
      rw [Ne, show Stream.mk (ts.map φ.token) (φ.offset span.stop) = φ.stream ⟨ts, span.stop⟩
        from rfl, Relabeling.kind_stream_eq_iff _ rfl]
      exact kind_ne_dot _ hdot
    exact identifiers_last (s := φ.stream ⟨⟨.identifier name, span⟩ :: ts, prevEnd⟩) rfl hkind
  | case3 prevEnd ts _ hname =>
    obtain _ | ⟨⟨kind, span⟩, ts⟩ := ts
    · rfl
    · cases kind with
      | identifier name => exact (hname name span ts rfl).elim
      | _ => rfl

/-- The tokens of a type name are the same ones. -/
theorem readName_relabel (st : NameState) (prevEnd : Nat) (ts : List Token) :
    readName st (φ.offset prevEnd) (ts.map φ.token) = φ.parsed id (readName st prevEnd ts) := by
  fun_induction readName st prevEnd ts with
  | case1 => rfl
  | case2 st prevEnd t ts st' hnext ih =>
    have hnext' : st.next? (φ.token t).kind = some st' :=
      (Relabeling.next?_kind t.kind st).trans hnext
    rw [List.map_cons, readName, hnext']
    exact ih
  | case3 st prevEnd t ts hnext =>
    have hnext' : st.next? (φ.token t).kind = none :=
      (Relabeling.next?_kind t.kind st).trans hnext
    rw [List.map_cons, readName, hnext']
    rfl

variable {source : List Char}

/-- What is cut out of the source between two offsets is the same text. -/
theorem slice_relabel (start stop : Nat) :
    Text.slice (φ.offset start) (φ.offset stop) (φ.before ++ source) =
      Text.slice start stop source := by
  rw [Relabeling.offset, Relabeling.offset, Nat.add_comm start, Nat.add_comm stop,
    Text.slice_byteLength_add]

/-- A type name is read with the same text, as the text is cut out and not put together from tokens.
-/
theorem typeName?_relabel (s : Stream) :
    (φ.stream s).typeName? (φ.before ++ source) = (s.typeName? source).map (φ.parsed id) := by
  simp only [typeName?]
  have hname : readName ⟨0, true⟩ (φ.stream s).prevEnd (φ.stream s).ahead =
      φ.parsed id (readName ⟨0, true⟩ s.prevEnd s.ahead) := readName_relabel _ _ _
  rw [hname, Relabeling.start_stream]
  dsimp only [Relabeling.parsed, Relabeling.stream, id]
  rw [slice_relabel]
  rw [apply_ite (Option.map (φ.parsed id))]
  rfl

/-! ### Attributes -/

section Attributes

theorem skipArguments?_relabel (s : Stream) :
    (φ.stream s).skipArguments? = s.skipArguments?.map φ.stream := by
  rw [skipArguments?, skipArguments?, if_congr (φ.kind_stream_eq_iff s rfl) rfl rfl,
    skipGroup_relabel]
  split
  · cases s.skipGroup <;> rfl
  · rfl

/-- An attribute keeps its name and is moved. -/
theorem attribute?_relabel (s : Stream) :
    (φ.stream s).attribute? (φ.before ++ source) =
      (s.attribute? source).map (φ.parsed (.relabel φ)) := by
  rw [attribute?, attribute?, typeName?_relabel]
  cases s.typeName? source with
  | none => rfl
  | some name =>
    show ((φ.stream name.rest).skipArguments?.bind _) = ((name.rest.skipArguments?.bind _).map _)
    rw [skipArguments?_relabel, Relabeling.start_stream]
    cases name.rest.skipArguments? <;> rfl

/-- Attributes in a row are read alike, by induction on the number of tokens ahead. -/
theorem attributes?_relabel (s : Stream) :
    (φ.stream s).attributes? (φ.before ++ source) =
      (s.attributes? source).map (φ.parsed (List.map (.relabel φ))) := by
  induction hn : s.size using Nat.strongRecOn generalizing s with
  | ind n ih =>
    subst hn
    rw [attributes?_eq, attributes?_eq, if_congr (φ.kind_stream_eq_iff s rfl) rfl rfl,
      attribute?_relabel]
    split
    · rfl
    cases hfirst : s.attribute? source with
    | none => rfl
    | some first =>
      dsimp only [Option.map_some, bind, Option.bind, Relabeling.parsed]
      rw [if_congr (φ.kind_stream_eq_iff first.rest rfl) rfl rfl, Relabeling.advance_stream,
        ih _ (Nat.lt_of_le_of_lt (size_advance_le _) (size_attribute?_lt hfirst)) _ rfl]
      split
      · cases attributes? source first.rest.advance <;> rfl
      · rfl

/-- The target of a section is renamed. -/
theorem target_relabel (s : Stream) :
    (φ.stream s).target = φ.parsed (Option.map φ.rename) s.target := by
  unfold target
  rw [Relabeling.kind_stream, Relabeling.secondKind_stream, Relabeling.name?_kind]
  cases s.kind.name? with
  | none => rfl
  | some name =>
    cases hsecond : s.secondKind with
    | colon =>
      dsimp only [Option.map_some, Relabeling.kind]
      rw [Relabeling.advance_stream, Relabeling.advance_stream]
      rfl
    | _ => rfl

/-- Only sections for the assembly or for the module are not for what follows. -/
theorem isOwnTarget_eq_false_iff {target : Option String} :
    isOwnTarget target = false ↔ target = some "assembly" ∨ target = some "module" := by
  unfold isOwnTarget
  split <;> simp_all

/-- A section is for what follows exactly if it was before. -/
theorem isOwnTarget_relabel (target : Option String) :
    isOwnTarget (target.map φ.rename) = isOwnTarget target := by
  rw [Bool.eq_iff_iff, ← not_iff_not, Bool.not_eq_true, Bool.not_eq_true, isOwnTarget_eq_false_iff,
    isOwnTarget_eq_false_iff]
  cases target with
  | none => rfl
  | some name =>
    simp only [Option.map_some, Option.some.injEq]
    rw [Relabeling.rename_eq_iff (by decide), Relabeling.rename_eq_iff (by decide)]

theorem section?_relabel (s : Stream) :
    (φ.stream s).section? (φ.before ++ source) =
      (s.section? source).map (φ.parsed (.relabel φ)) := by
  simp only [section?]
  rw [Relabeling.advance_stream, target_relabel, Relabeling.parsed_value, isOwnTarget_relabel,
    Relabeling.parsed_rest, attributes?_relabel, Relabeling.start_stream]
  split
  · cases attributes? source s.advance.target.rest with
    | none => rfl
    | some attributes =>
      dsimp only [Option.map_some]
      rw [Relabeling.parsed_value, List.isEmpty_map, Relabeling.parsed_rest,
        Relabeling.kind_stream, bne, bne, Relabeling.beq_kind rfl, Relabeling.advance_stream]
      split <;> rfl
  · rfl

/-- **Attribute sections are read alike**, by induction on the number of tokens ahead. -/
theorem sections?_relabel (s : Stream) :
    (φ.stream s).sections? (φ.before ++ source) =
      (s.sections? source).map (φ.parsed (List.map (.relabel φ))) := by
  induction hn : s.size using Nat.strongRecOn generalizing s with
  | ind n ih =>
    subst hn
    rw [sections?_eq, sections?_eq, section?_relabel,
      if_congr (φ.kind_stream_eq_iff s rfl) rfl rfl]
    split
    next hkind =>
      cases hfirst : s.section? source with
      | none => rfl
      | some first =>
        dsimp only [Option.map_some, bind, Option.bind, Relabeling.parsed]
        rw [ih _ (size_section?_lt hkind hfirst) _ rfl]
        cases sections? source first.rest <;> rfl
    next => rfl

end Attributes

end Stream

end DoubleDispatch
