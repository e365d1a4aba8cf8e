import DoubleDispatch.Proofs.Parsing.Body
import DoubleDispatch.Proofs.Printing.Header

/-!
# Printed bodies are read back

Using directives, namespaces and types one after the other. What the parser tries first at each of
them, a using directive and then a namespace, does not take a token of anything else, so the members
are read in their order, and a namespace gives what its own body gives.
-/

namespace DoubleDispatch

open Piece (kindOf)

namespace Stream

variable {source : List Char} {rest : List Piece} {s : Stream}

/-! ### Using directives -/

/-- A name before a target is no word of the directive, and no alias unless an equals sign
follows. -/
theorem Before.usingKind_target {t : Syntax.TypeName false} (isStatic : Bool)
    (h : Before source (t.write (.mark .semicolon :: rest)) s) :
    s.eatWord "static" = s ∧ s.eatWord "unsafe" = s ∧
      usingKind isStatic s = ⟨if isStatic then .staticMembers else .types, s⟩ := by
  obtain ⟨hkind, hsecond⟩ := Before.head h
  have hstatic : t.head.name ≠ "static" := Syntax.Name.ne
  have hunsafe : t.head.name ≠ "unsafe" := Syntax.Name.ne
  have hequals : s.secondKind ≠ .equals := by
    rcases hsecond with hsecond | hsecond | hsecond | hsecond | hsecond <;>
      (rw [hsecond]; nofun)
  refine ⟨?_, ?_, ?_⟩
  · rw [eatWord, eat, if_neg (by rw [hkind]; simpa using hstatic)]
  · rw [eatWord, eat, if_neg (by rw [hkind]; simpa using hunsafe)]
  · rw [usingKind]
    split
    next hsecond' => exact absurd hsecond' hequals
    next => rfl

/-- The words before a target say what the directive brings into scope. -/
theorem Before.usingKind {form : Syntax.UsingForm} {t : Syntax.TypeName false}
    (h : Before source (form.write (t.write (.mark .semicolon :: rest))) s) :
    ∃ next,
      Stream.usingKind (s.kind.isWord "static") ((s.eatWord "static").eatWord "unsafe") =
        ⟨form.tree, next⟩ ∧ Before source (t.write (.mark .semicolon :: rest)) next := by
  cases form with
  | types =>
    obtain ⟨hstatic, hunsafe, hread⟩ := Before.usingKind_target false h
    have hword : s.kind.isWord "static" = false := by
      have hname : t.head.name ≠ "static" := Syntax.Name.ne
      rw [(Before.head h).1]
      simpa [TokenKind.isWord] using hname
    rw [hstatic, hunsafe, hword, hread]
    exact ⟨s, rfl, h⟩
  | staticMembers =>
    have hkind : s.kind = .identifier "static" := h.kind_eq
    have heat : s.eatWord "static" = s.advance := by rw [eatWord, eat, if_pos hkind]
    obtain ⟨-, hunsafe, hread⟩ := Before.usingKind_target true h.word.blank
    rw [heat, hunsafe, hkind]
    exact ⟨s.advance, hread, h.word.blank⟩
  | «alias» name =>
    have hkind : s.kind = .identifier name.name := h.kind_eq
    have hsecond : s.secondKind = .equals := h.secondKind_eq
    have hstatic : name.name ≠ "static" := name.ne
    have hunsafe : name.name ≠ "unsafe" := name.ne
    have heat {word : String} (hword : name.name ≠ word) : s.eatWord word = s := by
      rw [eatWord, eat, if_neg (by rw [hkind]; simpa using hword)]
    refine ⟨s.advance.advance, ?_, h.word.blank.mark.blank⟩
    rw [heat hstatic, heat hunsafe, Stream.usingKind, hkind, hsecond]
    rfl

theorem Before.usingTarget? {u : Syntax.Using} (isGlobal : Bool) (start : Nat)
    (h : Before source (u.form.write (u.target.name.write (.mark .semicolon :: rest))) s) :
    ∃ read, s.usingTarget? source isGlobal start = some read ∧
      read.value.withoutSpan = { u.tree with isGlobal := isGlobal } ∧
      Before source rest read.rest := by
  obtain ⟨next, hkind, hnext⟩ := h.usingKind
  have hends : EndsName (kindOf (.mark .semicolon :: rest)) := rfl
  obtain ⟨behind, hread, hbehind⟩ := Before.typeName? hends hnext
  have hsemicolon : behind.kind = .semicolon := hbehind.kind_eq
  refine ⟨⟨⟨u.form.tree, u.target.name.text, isGlobal, ⟨start, behind.advance.prevEnd⟩⟩,
    behind.advance⟩, ?_, rfl, hbehind.mark⟩
  simp only [Stream.usingTarget?, hkind, hread, hsemicolon, if_true]

/-- **A printed using directive is read back.** -/
theorem Before.using? {u : Syntax.Using} (h : Before source (u.write rest) s) :
    ∃ read, s.using? source = some read ∧ read.value.withoutSpan = u.tree ∧
      Before source rest read.rest := by
  obtain ⟨form, target, _ | _⟩ := u
  · have hword : s.kind.isWord "using" = true := by
      rw [h.kind_eq]
      rfl
    obtain ⟨read, hread, hvalue, hnext⟩ :=
      Before.usingTarget? (u := ⟨form, target, false⟩) false s.start h.word.blank
    exact ⟨read, by rw [Stream.using?, if_pos hword, hread], hvalue, hnext⟩
  · have hkind : s.kind = .identifier "global" := h.kind_eq
    have hsecond : s.secondKind = .identifier "using" := h.secondKind_eq
    obtain ⟨read, hread, hvalue, hnext⟩ :=
      Before.usingTarget? (u := ⟨form, target, true⟩) true s.start h.word.blank.word.blank
    refine ⟨read, ?_, hvalue, hnext⟩
    rw [Stream.using?, hkind, hsecond]
    exact hread

/-- A body goes on at a word and at the bracket of an attribute section. -/
theorem goesOn_of_bracket_or_word {braced : Bool}
    (h : s.kind = .openBracket ∨ ∃ word, s.kind = .identifier word) : GoesOn braced s := by
  rcases h with h | ⟨word, h⟩ <;> exact goesOn_of_kind (by rw [h]; rfl) (by rw [h]; nofun)

/-- Directives before other pieces are read first. -/
theorem Before.usings {us : List Syntax.Using} {depth : Nat} (braced : Bool) (ordinal : Nat)
    (h : Before source (Syntax.Using.writeLines depth us rest) s) :
    ∃ read next, read.map UsingDirective.withoutSpan = us.map Syntax.Using.tree ∧
      Before source rest next ∧
      bodyOf source braced ordinal s =
        (fun later ↦ { later with usings := read ++ later.usings }) <$>
          bodyOf source braced ordinal next := by
  induction us generalizing s with
  | nil =>
    refine ⟨[], s, rfl, h, ?_⟩
    exact (id_map _).symm
  | cons u us ih =>
    have hgoesOn : GoesOn braced s := by
      refine goesOn_of_bracket_or_word (.inr ?_)
      rw [h.kind_eq, Syntax.Using.writeLines, kindOf, Syntax.Using.write]
      split
      · exact ⟨_, rfl⟩
      · exact ⟨_, rfl⟩
    obtain ⟨first, hfirst, hvalue, hnext⟩ := Before.using? h.blank
    obtain ⟨read, next, hread, hlast, hbody⟩ := ih hnext.blank
    refine ⟨first.value :: read, next, ?_, hlast, ?_⟩
    · rw [List.map_cons, hvalue, hread]
      rfl
    · rw [hgoesOn.bodyOf_using hfirst, hbody]
      cases bodyOf source braced ordinal next <;> rfl

/-! ### Members -/

/-- The kind of the token at which a body ends. -/
def endKind (braced : Bool) : TokenKind := if braced then .closeBrace else .endOfFile

theorem bodyOf_end {braced : Bool} (hkind : s.kind = endKind braced) (ordinal : Nat) :
    bodyOf source braced ordinal s = .ok ⟨[], [], ordinal, s⟩ := by
  have hends : s.endsBody braced = true := by
    rw [endsBody, hkind]
    cases braced <;> rfl
  rw [bodyOf_eq, if_pos hends]

/-- What a printed declaration starts with. -/
theorem kindOf_declaration (d : Syntax.Declaration) (depth : Nat) (rest : List Piece) :
    kindOf (d.write depth rest) = .openBracket ∨
      ∃ word, kindOf (d.write depth rest) = .identifier word ∧
        word ≠ "using" ∧ word ≠ "global" ∧ word ≠ "namespace" := by
  rw [Syntax.Declaration.write]
  cases d.sections with
  | nil =>
    obtain ⟨word, hword, hkind⟩ := exists_kindOf_writeModifiers d.modifiers d.kind
      (.blank .space :: d.writeName depth rest)
    refine .inr ⟨word, hkind, ?_⟩
    rw [← List.mem_append] at hword
    clear hkind
    revert word
    decide
  | cons first later => exact .inl rfl

/-- Behind the members of a body no stray semicolon stands. -/
theorem kindOf_members (m : Syntax.Members) (depth : Nat) (hrest : kindOf rest ≠ .semicolon) :
    kindOf (m.write depth rest) ≠ .semicolon := by
  cases m with
  | nil => exact hrest
  | type declaration later =>
    rw [Syntax.Members.write, kindOf]
    rcases kindOf_declaration declaration depth (.blank .lineBreak :: later.write depth rest) with
      hkind | ⟨word, hkind, -⟩ <;> (rw [hkind]; nofun)
  | scope name usings content later => nofun
  | fileScoped name usings content => nofun

theorem endKind_ne_semicolon (braced : Bool) : endKind braced ≠ .semicolon := by
  cases braced <;> nofun

/-- What reading members gives, where the next type has the given ordinal. -/
structure ReadsMembers (source : List Char) (m : Syntax.Members) (usings : List Syntax.Using)
    (rest : List Piece) (ordinal : Nat) (b : Body) : Prop where
  usings : b.usings.map UsingDirective.withoutSpan = usings.map Syntax.Using.tree
  members : membersWithoutSpans b.members = m.tree ordinal
  ordinal : b.ordinal = ordinal + m.size
  rest : Before source rest b.rest

/-- A body with its directives is read back if its members are. -/
theorem Before.bodyOf_usings {us : List Syntax.Using} {m : Syntax.Members} {ps : List Piece}
    {depth ordinal : Nat} {braced : Bool}
    (hm : ∀ s, Before source ps s →
      ∃ b, bodyOf source braced ordinal s = .ok b ∧ ReadsMembers source m [] rest ordinal b)
    (h : Before source (Syntax.Using.writeLines depth us ps) s) :
    ∃ b, bodyOf source braced ordinal s = .ok b ∧ ReadsMembers source m us rest ordinal b := by
  obtain ⟨read, next, hread, hnext, hbody⟩ := h.usings braced ordinal
  obtain ⟨b, hb, husings, hmembers, hordinal, hrest⟩ := hm next hnext
  refine ⟨{ b with usings := read ++ b.usings }, ?_, ?_, hmembers, hordinal, hrest⟩
  · rw [hbody, hb]
    rfl
  · have hnil : b.usings = [] := List.map_eq_nil_iff.1 husings
    rw [hnil, List.append_nil]
    exact hread

theorem Before.namespaceHeader {name : Syntax.DottedName} {m : Mark}
    (h : Before source (name.write rest) s) (hkind : kindOf rest = m.kind)
    (hm : m = .openBrace ∨ m = .semicolon) :
    ∃ next, s.namespaceHeader = .ok ⟨(name.text, m = .semicolon), next.advance⟩ ∧
      Before source rest next := by
  have hdot : kindOf rest ≠ .dot := by
    rcases hm with rfl | rfl <;> (rw [hkind]; nofun)
  obtain ⟨next, hname, hnext⟩ := Before.dottedName hdot h
  have hnextKind : next.kind = m.kind := hnext.kind_eq.trans hkind
  refine ⟨next, namespaceHeader_eq_ok_iff.2 ⟨_, _, hname, ?_, rfl⟩, hnext⟩
  rw [hnextKind]
  rcases hm with rfl | rfl <;> rfl

/-- A namespace in braces is read back if its content is and what stands behind it. -/
theorem Before.bodyOf_scope {name : Syntax.DottedName} {us : List Syntax.Using}
    {content later : Syntax.Members} {depth ordinal : Nat} {braced : Bool} {behind : List Piece}
    (hbehind : kindOf behind ≠ .semicolon)
    (hcontent : ∀ s, Before source (Syntax.Using.writeLines (depth + 1) us
        (content.write (depth + 1)
          (.blank (.indent depth) :: .mark .closeBrace :: .blank .lineBreak :: behind))) s →
      ∃ b, bodyOf source true ordinal s = .ok b ∧ ReadsMembers source content us
        (.blank (.indent depth) :: .mark .closeBrace :: .blank .lineBreak :: behind) ordinal b)
    (hlater : ∀ s, Before source behind s →
      ∃ b, bodyOf source braced (ordinal + content.size) s = .ok b ∧
        ReadsMembers source later [] rest (ordinal + content.size) b)
    (h : Before source (.word Syntax.namespaceWord :: .blank .space :: name.write
      (.blank .lineBreak :: .blank (.indent depth) :: .mark .openBrace :: .blank .lineBreak ::
        Syntax.Using.writeLines (depth + 1) us (content.write (depth + 1)
          (.blank (.indent depth) :: .mark .closeBrace :: .blank .lineBreak :: behind)))) s) :
    ∃ b, bodyOf source braced ordinal s = .ok b ∧
      ReadsMembers source (.scope name us content later) [] rest ordinal b := by
  have hkind : s.kind = .identifier "namespace" := h.kind_eq
  have hgoesOn : GoesOn braced s := goesOn_of_bracket_or_word (.inr ⟨_, hkind⟩)
  have husing : s.using? source = none :=
    using?_eq_none (.inr ⟨_, hkind, by decide, by decide⟩)
  obtain ⟨next, hheader, hnext⟩ := h.word.blank.namespaceHeader (m := .openBrace) rfl (.inl rfl)
  obtain ⟨inner, hinner, hreads⟩ := hcontent next.advance hnext.blank.blank.mark.blank
  have hclose := hreads.rest.blank
  have heat : inner.rest.advance.eat .semicolon = inner.rest.advance := by
    rw [eat, if_neg]
    rw [hclose.mark.blank.kind_eq]
    exact hbehind
  obtain ⟨b, hb, hreads'⟩ := hlater inner.rest.advance hclose.mark.blank
  refine ⟨b.behindScope inner (name.text, false) s.start, ?_, ?_⟩
  · rw [hgoesOn.bodyOf_namespace husing (by rw [hkind]; rfl), bodyFromNamespace, hheader, ok_bind]
    show (bodyOf source (braced || true) ordinal next.advance >>= _) = _
    rw [Bool.or_true, hinner, ok_bind]
    show (bodyOf source braced inner.ordinal (inner.rest.advance.eat .semicolon) >>= _) = _
    rw [heat, hreads.ordinal, hb]
    rfl
  · refine ⟨hreads'.usings, ?_, ?_, hreads'.rest⟩
    · show Member.withoutSpans (inner.toScope (name.text, false) s.start) ::
        membersWithoutSpans b.members = _
      rw [Body.toScope, Member.withoutSpans, hreads.usings, hreads.members, hreads'.members]
      rfl
    · exact hreads'.ordinal.trans (Nat.add_assoc _ _ _)

/-- A declaration is read back, and then what stands behind it. -/
theorem Before.bodyOf_type {declaration : Syntax.Declaration} {later : Syntax.Members}
    {depth ordinal : Nat} {braced : Bool} {behind : List Piece}
    (hbehind : kindOf behind ≠ .semicolon)
    (hlater : ∀ s, Before source behind s →
      ∃ b, bodyOf source braced (ordinal + 1) s = .ok b ∧
        ReadsMembers source later [] rest (ordinal + 1) b)
    (h : Before source (declaration.write depth (.blank .lineBreak :: behind)) s) :
    ∃ b, bodyOf source braced ordinal s = .ok b ∧
      ReadsMembers source (.type declaration later) [] rest ordinal b := by
  have hfirst := kindOf_declaration declaration depth (.blank .lineBreak :: behind)
  rw [← h.kind_eq] at hfirst
  have hgoesOn : GoesOn braced s :=
    goesOn_of_bracket_or_word (hfirst.imp_right fun ⟨word, hword, _⟩ ↦ ⟨word, hword⟩)
  have husing : s.using? source = none :=
    using?_eq_none (hfirst.imp_right fun ⟨word, hword, husing, hglobal, _⟩ ↦
      ⟨word, hword, husing, hglobal⟩)
  have hnamespace : s.kind.isWord "namespace" = false := by
    rcases hfirst with hkind | ⟨word, hkind, -, -, hword⟩
    · rw [hkind]
      rfl
    · rw [hkind]
      simpa [TokenKind.isWord] using hword
  have hline : kindOf (.blank .lineBreak :: behind) ≠ .semicolon := hbehind
  obtain ⟨read, hread, hvalue, hnext⟩ := h.typeDeclaration? ordinal hline
  obtain ⟨b, hb, hreads⟩ := hlater read.rest hnext.blank
  refine ⟨{ b with members := .type read.value :: b.members }, ?_, hreads.usings, ?_, ?_,
    hreads.rest⟩
  · rw [hgoesOn.bodyOf_type husing hnamespace, bodyFromType, hread]
    show (bodyOf source braced (ordinal + 1) read.rest >>= _) = _
    rw [hb]
    rfl
  · rw [membersWithoutSpans, Member.withoutSpans, hvalue, hreads.members]
    rfl
  · exact hreads.ordinal.trans (Nat.add_assoc _ _ _)

/-- A file-scoped namespace is read back if its content is: what encloses it ends with it. -/
theorem Before.bodyOf_fileScoped {name : Syntax.DottedName} {us : List Syntax.Using}
    {content : Syntax.Members} {ordinal : Nat} {braced : Bool} {behind : List Piece}
    (hrest : kindOf rest = endKind braced)
    (hcontent : ∀ s, Before source behind s →
      ∃ b, bodyOf source braced ordinal s = .ok b ∧ ReadsMembers source content us rest ordinal b)
    (h : Before source (.word Syntax.namespaceWord :: .blank .space :: name.write
      (.mark .semicolon :: .blank .lineBreak :: behind)) s) :
    ∃ b, bodyOf source braced ordinal s = .ok b ∧
      ReadsMembers source (.fileScoped name us content) [] rest ordinal b := by
  have hkind : s.kind = .identifier "namespace" := h.kind_eq
  have hgoesOn : GoesOn braced s := goesOn_of_bracket_or_word (.inr ⟨_, hkind⟩)
  have husing : s.using? source = none :=
    using?_eq_none (.inr ⟨_, hkind, by decide, by decide⟩)
  obtain ⟨next, hheader, hnext⟩ := h.word.blank.namespaceHeader (m := .semicolon) rfl (.inr rfl)
  obtain ⟨inner, hinner, hreads⟩ := hcontent next.advance hnext.mark.blank
  have hend : inner.rest.kind = endKind braced := hreads.rest.kind_eq.trans hrest
  refine ⟨⟨[], [inner.toScope (name.text, true) s.start], inner.ordinal, inner.rest⟩, ?_, rfl,
    ?_, hreads.ordinal, hreads.rest⟩
  · rw [hgoesOn.bodyOf_namespace husing (by rw [hkind]; rfl), bodyFromNamespace, hheader, ok_bind]
    show (bodyOf source (braced || false) ordinal next.advance >>= _) = _
    rw [Bool.or_false, hinner, ok_bind]
    show (bodyOf source braced inner.ordinal inner.rest >>= _) = _
    rw [bodyOf_end hend]
    rfl
  · rw [membersWithoutSpans, Body.toScope, Member.withoutSpans, hreads.usings, hreads.members]
    rfl

/-- **Printed members are read back** up to the end of their body. -/
theorem Before.bodyOf_members (m : Syntax.Members) {depth ordinal : Nat} {braced : Bool}
    (hrest : kindOf rest = endKind braced) (h : Before source (m.write depth rest) s) :
    ∃ b, bodyOf source braced ordinal s = .ok b ∧ ReadsMembers source m [] rest ordinal b := by
  have hbehind (later : Syntax.Members) {depth : Nat} {rest : List Piece} {braced : Bool}
      (hrest : kindOf rest = endKind braced) : kindOf (later.write depth rest) ≠ .semicolon :=
    kindOf_members later depth (hrest ▸ endKind_ne_semicolon braced)
  induction m generalizing depth ordinal braced rest s with
  | nil =>
    refine ⟨⟨[], [], ordinal, s⟩, bodyOf_end (h.kind_eq.trans hrest) ordinal, ?_⟩
    exact ⟨rfl, rfl, rfl, h⟩
  | type declaration later ih =>
    exact Before.bodyOf_type (hbehind later hrest) (fun s hs ↦ ih hrest hs) h.blank
  | scope name usings content later ihcontent ihlater =>
    refine Before.bodyOf_scope (hbehind later hrest) ?_ (fun s hs ↦ ihlater hrest hs) h.blank
    exact fun s hs ↦ Before.bodyOf_usings (fun s hs ↦ ihcontent rfl hs) hs
  | fileScoped name usings content ih =>
    refine Before.bodyOf_fileScoped hrest ?_ h.blank
    exact fun s hs ↦ Before.bodyOf_usings (fun s hs ↦ ih hrest hs) hs

end Stream

end DoubleDispatch
