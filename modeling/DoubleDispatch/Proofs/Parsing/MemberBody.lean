import DoubleDispatch.Proofs.Binding.SymbolIds
import DoubleDispatch.Proofs.Parsing.Delegate
import DoubleDispatch.Proofs.Token.Locality
import DoubleDispatch.Proofs.Token.Tiling

/-!
# Member bodies

The body of a type is skipped to the brace that closes it, and no parser looks behind the brace that
opens it before. So a source may have any other content between these braces that is balanced: it is
read with the same declarations (`SourceFile.exists_parse_of_isBody`). That the tokens outside the
braces are the same as before holds for any text between them (`BracedText.Divides.outside`), as a
lexeme neither goes on over an opening brace nor over a closing one.
-/

namespace DoubleDispatch

open Text (byteLength)

/-! ### Text in braces -/

/-- A source with braces in it. -/
structure BracedText where
  before : List Char
  content : List Char
  behind : List Char

namespace BracedText

variable (g : BracedText)

def source : List Char := g.before ++ ['{'] ++ (g.content ++ '}' :: g.behind)

def opener : Token := ⟨.openBrace, ⟨byteLength g.before, byteLength g.before + 1⟩⟩

/-- The offset of the closing brace. -/
def stop : Nat := byteLength g.before + 1 + byteLength g.content

def closer : Token := ⟨.closeBrace, ⟨g.stop, g.stop + 1⟩⟩

/-- The source with another text between the braces. -/
def withContent (content : List Char) : BracedText := { g with content }

/-- The text between the braces is replaced. -/
def replacement (content : List Char) : Replacement :=
  ⟨g.before ++ ['{'], g.content, content, '}' :: g.behind⟩

/-- Both braces are tokens of the source, and the tokens between them are balanced. -/
structure Divides (front inner back : List Token) : Prop where
  tokens : tokenize (String.ofList g.source) =
    .ok (front ++ g.opener :: (inner ++ g.closer :: back))
  balanced : Balanced (kindsOf inner)

variable {g} {content : List Char} {front inner back front' inner' back' : List Token}

theorem byteLength_before_replacement (content : List Char) :
    byteLength (g.replacement content).before = byteLength g.before + 1 :=
  Text.byteLength_append g.before ['{']

namespace Divides

theorem tokensFrom (h : g.Divides front inner back) :
    Lexer.tokensFrom true 0 (g.before ++ '{' :: (g.content ++ '}' :: g.behind)) =
      .ok (front ++ g.opener :: (inner ++ g.closer :: back)) := by
  have htokens := h.tokens
  rwa [tokenize, String.toList_ofList, source, List.append_assoc, List.singleton_append] at htokens

theorem pairwise (h : g.Divides front inner back) :
    (front ++ g.opener :: (inner ++ g.closer :: back)).Pairwise fun t u ↦
      t.span.stop ≤ u.span.start ∧ t.span.start < u.span.start :=
  (tokensFrom_of_tokenize h.tokens).pairwise

/-- The tokens behind the closing brace are those of the text there. -/
theorem tokensFrom_behind (h : g.Divides front inner back) :
    Lexer.tokensFrom false (g.stop + 1) g.behind = .ok back := by
  obtain ⟨-, hinside, -⟩ := Lexer.tokensFrom_append_openBrace h.tokensFrom (Nat.zero_add _).symm
  rw [Nat.zero_add] at hinside
  obtain ⟨lineStart, hbehind, -⟩ :=
    Lexer.tokensFrom_congr (.cons (by decide) (by decide) g.behind g.behind) hinside rfl
  have hcloser : (Lexer.punctuation '}').isCloser := by decide
  rw [Lexer.tokensFrom_isCloser hcloser] at hbehind
  obtain ⟨later, hlater, heq⟩ := Lexer.eq_ok_of_map_eq_ok hbehind
  obtain ⟨-, rfl⟩ := List.cons.inj heq
  exact hlater

/-- No token behind the opening brace is this brace. -/
theorem opener_notMem {rest : List Token} (h : (front ++ g.opener :: rest).Pairwise fun t u ↦
    t.span.stop ≤ u.span.start ∧ t.span.start < u.span.start) : g.opener ∉ rest := fun hmem ↦
  absurd ((List.pairwise_cons.1 (List.pairwise_append.1 h).2.1).1 _ hmem).2 (Nat.lt_irrefl _)

/-- **The tokens outside the braces** are the same whatever stands between them, and those behind
them are moved. -/
theorem outside (h : g.Divides front inner back)
    (h' : (g.withContent content).Divides front' inner' back') :
    front' = front ∧ ∃ tail : List Token, back = tail.map (Token.moved (g.stop + 1)) ∧
      back' = tail.map (Token.moved ((g.withContent content).stop + 1)) := by
  constructor
  · obtain ⟨-, -, hcongr⟩ := Lexer.tokensFrom_append_openBrace h.tokensFrom (Nat.zero_add _).symm
    have hright : Lexer.tokensFrom true 0 (g.before ++ '{' :: (content ++ '}' :: g.behind)) = _ :=
      h'.tokensFrom
    rw [hcongr] at hright
    obtain ⟨later, hlater, heq⟩ := Lexer.eq_ok_of_map_eq_ok hright
    obtain ⟨inside, -, rfl⟩ := Lexer.eq_ok_of_map_eq_ok hlater
    have heq : front ++ g.opener :: inside =
        front' ++ g.opener :: (inner' ++ (g.withContent content).closer :: back') := heq
    have hpairwise := h'.pairwise
    exact (append_cons_inj_of_notMem (opener_notMem (heq ▸ hpairwise)) (opener_notMem hpairwise)
      heq).1.symm
  · have hbehind := h.tokensFrom_behind
    have hbehind' := h'.tokensFrom_behind
    rw [← Nat.zero_add (_ + 1), Lexer.tokensFrom_add] at hbehind hbehind'
    have hsame : (g.withContent content).behind = g.behind := rfl
    rw [hsame] at hbehind'
    cases htail : Lexer.tokensFrom false 0 g.behind with
    | error stop =>
      rw [htail] at hbehind
      cases hbehind
    | ok tail =>
      rw [htail] at hbehind hbehind'
      exact ⟨tail, (Except.ok.inj hbehind).symm, (Except.ok.inj hbehind').symm⟩

end Divides

end BracedText

/-! ### Bodies of types -/

/-- An item of a body is a declaration, and its body starts with the first one of some tokens. -/
structure Stream.Declares (source : List Char) (braced : Bool) (ordinal : Nat) (s : Stream)
    (d : TypeDeclaration) (body : List Token) : Prop where
  goesOn : GoesOn braced s
  noUsing : s.using? source = none
  noNamespace : s.kind.isWord "namespace" = false
  found : ∃ rest, s.typeDeclaration? source ordinal = .ok (some ⟨d, rest⟩)
  starts : ∃ header head, s.headerStart? source = some header ∧
    header.rest.head source header.value = .ok head ∧ head.rest.ahead = body

/-- A declaration stands in the file or in a namespace, and its body starts with the first one of
some tokens. -/
def IsBody (source : List Char) (tokens : List Token) (d : TypeDeclaration) (body : List Token) :
    Prop :=
  ∃ braced ordinal s, Stream.Reaches source braced ordinal s false 0 ⟨tokens, 0⟩ ∧
    Stream.Declares source braced ordinal s d body

namespace Stream

variable {source : List Char} {braced : Bool} {ordinal : Nat} {s : Stream}

section

variable {header : Parsed HeaderStart} {head : Parsed Head} {inner rest : List Token}
  {opener closer : Token}

/-- A type is read up to the brace that closes its body, and a semicolon behind it. -/
theorem GoesOn.bodyOf_of_isGroup (ordinal : Nat) (goesOn : GoesOn braced s)
    (noUsing : s.using? source = none) (noNamespace : s.kind.isWord "namespace" = false)
    (hheader : s.headerStart? source = some header)
    (hhead : header.rest.head source header.value = .ok head)
    (hmark : head.rest.ahead = opener :: (inner ++ closer :: rest))
    (hopener : opener.kind = .openBrace) (hcloser : closer.kind = .closeBrace)
    (hinner : Balanced (kindsOf inner)) {next : Stream}
    (hnext : next = (Stream.mk rest closer.span.stop).eat .semicolon) :
    bodyOf source braced ordinal s = (do
      let later ← bodyOf source braced (ordinal + 1) next
      let d := head.value.declaration ordinal ⟨s.start, next.prevEnd⟩
      return { later with members := .type d :: later.members }) := by
  have hgroup : IsGroup (opener :: inner ++ [closer]) := .mk (by rw [hopener, hcloser]; rfl) hinner
  have hmark : head.rest.ahead = (opener :: inner ++ [closer]) ++ rest := by
    rw [hmark, List.append_assoc]
    rfl
  have hskip : head.rest.skipGroup = .ok ⟨rest, closer.span.stop⟩ := by
    have hgroups := skipGroup_of_isGroup hgroup rest head.rest.prevEnd
    rwa [stopBehind_append, ← hmark] at hgroups
  have hbody : head.rest.typeBody head.value.name = .ok next := by
    have hbrace : head.rest.kind = .openBrace := by rw [Stream.kind, hmark]; exact hopener
    exact typeBody_eq_ok_iff.2 (.inl ⟨hbrace, _, hskip, hnext⟩)
  rw [goesOn.bodyOf_type noUsing noNamespace, bodyFromType, typeDeclaration?, hheader]
  dsimp only
  rw [declarator_eq, hhead, ok_bind, hbody]
  rfl

end

/-- Every declaration that is found has a body. -/
theorem GoesOn.exists_declares (goesOn : GoesOn braced s) (noUsing : s.using? source = none)
    (noNamespace : s.kind.isWord "namespace" = false) {d : Parsed TypeDeclaration}
    (found : s.typeDeclaration? source ordinal = .ok (some d)) :
    ∃ body, IsTypeBody body ∧ ∃ rest, Declares source braced ordinal s d.value (body ++ rest) := by
  obtain ⟨header, hheader, hd⟩ := exists_headerStart?_of_typeDeclaration? found
  rw [declarator_eq] at hd
  obtain ⟨head, hhead, hd⟩ := exists_of_bind_eq_ok hd
  obtain ⟨next, hnext, -⟩ := exists_of_bind_eq_ok hd
  obtain ⟨body, hahead, -, hbody, -⟩ := exists_passage_of_typeBody hnext
  exact ⟨body, hbody, next.ahead, goesOn, noUsing, noNamespace, ⟨d.rest, found⟩, header, head,
    hheader, hhead, hahead⟩

/-- A body comes to each of its declarations. -/
theorem Reads.exists_declares {b : Body} (h : Reads source braced ordinal s b) :
    ∀ d ∈ typesOf b.members, ∃ braced' ordinal' t body rest, IsTypeBody body ∧
      Reaches source braced' ordinal' t braced ordinal s ∧
        Declares source braced' ordinal' t d (body ++ rest) := by
  induction h with
  | done => simp [typesOf]
  | usingDirective goesOn found _ ih =>
    intro d hd
    obtain ⟨_, _, t, body, rest, hbody, hreaches, hdeclares⟩ := ih d hd
    exact ⟨_, _, t, body, rest, hbody, .behindUsing goesOn found hreaches, hdeclares⟩
  | @scope _ _ _ header _ later goesOn noUsing word found hcontent hlater ihcontent ihlater =>
    refine List.forall_mem_append.2 ⟨fun d hd ↦ ?_, ?_⟩
    · obtain ⟨_, _, t, body, rest, hbody, hreaches, hdeclares⟩ := ihcontent d hd
      exact ⟨_, _, t, body, rest, hbody, .inNamespace goesOn noUsing word found hreaches, hdeclares⟩
    · cases hscoped : header.value.2 with
      | true =>
        rw [hcontent.eq_of_fileScoped hscoped hlater]
        simp [typesOf]
      | false =>
        intro d hd
        obtain ⟨_, _, t, body, rest, hbody, hreaches, hdeclares⟩ := ihlater d hd
        exact ⟨_, _, t, body, rest, hbody,
          .behindNamespace goesOn noUsing word found hscoped hcontent hreaches, hdeclares⟩
  | type goesOn noUsing noNamespace found _ ih =>
    refine List.forall_mem_cons.2 ⟨?_, fun d hd ↦ ?_⟩
    · obtain ⟨body, hbody, rest, hdeclares⟩ := goesOn.exists_declares noUsing noNamespace found
      exact ⟨_, _, _, body, rest, hbody, .here, hdeclares⟩
    · obtain ⟨_, _, t, body, rest, hbody, hreaches, hdeclares⟩ := ih d hd
      exact ⟨_, _, t, body, rest, hbody, .behindType goesOn noUsing noNamespace found hreaches,
        hdeclares⟩
  | item goesOn noUsing noNamespace noType found _ ih =>
    intro d hd
    obtain ⟨_, _, t, body, rest, hbody, hreaches, hdeclares⟩ := ih d hd
    exact ⟨_, _, t, body, rest, hbody, .behindItem goesOn noUsing noNamespace noType found hreaches,
      hdeclares⟩

end Stream

/-- **Every declaration of a file that is read has its body** in the source: a semicolon, or a group
in braces with which or behind which a semicolon the declaration ends. -/
theorem SourceFile.exists_isBody {source : String} {file : SourceFile}
    (h : SourceFile.parse source = .ok file) :
    ∃ tokens, tokenize source = .ok tokens ∧ ∀ d ∈ file.types,
      ∃ body rest, IsTypeBody body ∧ IsBody source.toList tokens d (body ++ rest) := by
  obtain ⟨tokens, b, htokens, -, hreads, rfl⟩ := exists_reads_of_parse h
  refine ⟨tokens, htokens, fun d hd ↦ ?_⟩
  obtain ⟨braced, ordinal, t, body, rest, hbody, hreaches, hdeclares⟩ := hreads.exists_declares d hd
  exact ⟨body, rest, hbody, braced, ordinal, t, hreaches, hdeclares⟩

namespace BracedText

variable {g : BracedText} {content : List Char} {front inner back front' inner' back' : List Token}

/-- The tokens up to the opening brace end before its text does. -/
theorem Divides.stop_le (h : g.Divides front inner back) :
    ∀ t ∈ front ++ [g.opener],
      t.span.start ≤ t.span.stop ∧ t.span.stop ≤ byteLength g.before + 1 := by
  intro t ht
  refine ⟨(tokensFrom_of_tokenize h.tokens).start_le_stop t ?_, ?_⟩
  · rw [List.append_cons]
    exact List.mem_append_left _ ht
  · rcases List.mem_append.1 ht with ht | ht
    · have hstart := ((List.pairwise_append.1 h.pairwise).2.2 t ht g.opener List.mem_cons_self).1
      exact Nat.le_succ_of_le hstart
    · rw [List.mem_singleton.1 ht, opener]

/-- The tokens up to the opening brace are the same. -/
theorem Divides.beside_front (h : g.Divides front inner back) (tail tail' : List Token) :
    ((g.replacement content).front tail tail').Beside ⟨front ++ g.opener :: tail, 0⟩
      ⟨front ++ g.opener :: tail', 0⟩ := by
  refine ⟨front ++ [g.opener], front ++ [g.opener], by simp, by simp, ?_⟩
  refine List.forall₂_same.2 fun t ht ↦ ?_
  obtain ⟨hle, hstop⟩ := h.stop_le t ht
  rw [← byteLength_before_replacement content] at hstop
  exact ⟨rfl, ⟨rfl, Nat.le_trans hle hstop⟩, rfl, hstop⟩

/-- The tokens behind the closing brace are moved. -/
theorem Divides.level_back (h : g.Divides front inner back)
    (h' : (g.withContent content).Divides front' inner' back') :
    (g.replacement content).back.Level ⟨back, g.closer.span.stop⟩
      ⟨back', (g.withContent content).closer.span.stop⟩ := by
  have hmeet (m : Nat) : (g.replacement content).back.Meet (m + (g.stop + 1))
      (m + ((g.withContent content).stop + 1)) := by
    refine ⟨m + 1, ?_, ?_⟩ <;> rw [byteLength_before_replacement]
    · show m + (byteLength g.before + 1 + byteLength g.content + 1) =
        byteLength g.before + 1 + byteLength g.content + (m + 1)
      omega
    · show m + (byteLength g.before + 1 + byteLength content + 1) =
        byteLength g.before + 1 + byteLength content + (m + 1)
      omega
  obtain ⟨-, tail, rfl, rfl⟩ := h.outside h'
  refine ⟨⟨_, _, (List.append_nil _).symm, (List.append_nil _).symm, ?_⟩, ?_⟩
  · rw [List.forall₂_map_left_iff, List.forall₂_map_right_iff, List.forall₂_same]
    exact fun t _ ↦ ⟨rfl, hmeet t.span.start, hmeet t.span.stop⟩
  · have hclosers := hmeet 0
    rwa [Nat.zero_add, Nat.zero_add] at hclosers

section Declaration

variable {braced : Bool} {ordinal : Nat} {s s' : Stream}

/-- What stands before the body of a type and the brace that opens it are passed over, and they end
like an item. -/
theorem guarded {P : Pairing} {header : Parsed Stream.HeaderStart} {head : Parsed Stream.Head}
    (hheader : s.headerStart? P.left = some header)
    (hhead : header.rest.head P.left header.value = .ok head)
    (hmark : head.rest.ahead = g.opener :: P.leftTail) : P.Guarded s := by
  obtain ⟨_, taken, htaken, hpassage⟩ := Stream.exists_passes_trans
    ⟨[], Stream.passes_headerStart? hheader⟩ (Stream.exists_passes_head hhead)
  refine .inr ⟨taken ++ [g.opener], _, by rw [htaken, hmark, List.append_cons],
    hpassage.append (.stray (.inr rfl) .nil), taken, g.opener, rfl, .inr (.inl rfl)⟩

/-- **A type is read alike with another body**, and so is what stands behind it. -/
theorem Divides.exists_agree (h : g.Divides front inner back)
    (h' : (g.withContent content).Divides front' inner' back')
    (hbeside : ((g.replacement content).front (inner ++ g.closer :: back)
      (inner' ++ (g.withContent content).closer :: back')).Beside s s')
    {d : TypeDeclaration} (hd : Stream.Declares g.source braced ordinal s d
      (g.opener :: (inner ++ g.closer :: back))) {b : Stream.Body}
    (hb : Stream.bodyOf g.source braced ordinal s = .ok b) :
    ∃ b', Stream.bodyOf (g.withContent content).source braced ordinal s' = .ok b' ∧
      (g.replacement content).Agree (SourceFile.Matches .same) b b' := by
  let P := (g.replacement content).front (inner ++ g.closer :: back)
    (inner' ++ (g.withContent content).closer :: back')
  obtain ⟨goesOn, noUsing, noNamespace, -, header, head, hheader, hhead, hmark⟩ := hd
  have hguarded : P.Guarded s := guarded hheader hhead hmark
  have hbefore : P.Before head.rest := .inr ⟨g.opener, [], hmark⟩
  have hheaderRest : P.Before header.rest := by
    obtain ⟨_, hpasses⟩ := Stream.exists_passes_head hhead
    exact hbefore.of_suffix hpasses.suffix
  -- The header is read up to the opening brace on the other side.
  obtain ⟨header', hheader', hstart, hbeside'⟩ := hbeside.headerStart? hheader hheaderRest
  obtain ⟨head', hhead', hheads, hmark'⟩ :=
    (hbeside'.head hstart hhead hbefore).exists_eq_ok trivial
  obtain ⟨opener, hopener, hahead⟩ := hmark'.exists_ahead_eq hmark
  rw [goesOn.bodyOf_of_isGroup ordinal noUsing noNamespace hheader hhead hmark rfl rfl h.balanced
    rfl] at hb
  obtain ⟨later, hlater, hb⟩ := exists_of_bind_eq_ok hb
  cases hb
  -- Both bodies are skipped, and what is behind them is read.
  have hlevel := (h.level_back h').eat_semicolon (Replacement.back_guarded _).before.clears
  obtain ⟨later', hlater', hlaters⟩ :=
    Replacement.exists_agree hlevel.beside (Stream.bodyOf_eq_ok_iff.1 hlater)
  have noNamespace' : s'.kind.isWord "namespace" = false := by
    rwa [hbeside.kind_eq hguarded.before]
  have hsame := Replacement.implies_same P trivial
  have hread := (hbeside.goesOn hguarded.before goesOn).bodyOf_of_isGroup ordinal
    (hbeside.using?_eq_none hguarded noUsing) noNamespace' hheader' hhead' hahead hopener.kind rfl
    h'.balanced rfl
  refine ⟨_, hread.trans (congrArg (· >>= _) hlater'), ⟨hlaters.file.usings, ?_,
    hlaters.file.members⟩, hlaters.ordinal, hlaters.rest⟩
  exact hsame.declaration (hheads.matches ordinal _ _)

end Declaration

end BracedText

theorem SourceFile.Matches.withoutSpans {file file' : SourceFile} (h : file.Matches .same file') :
    file'.withoutSpans = file.withoutSpans := by
  rw [SourceFile.withoutSpans, SourceFile.withoutSpans, usings_withoutSpan h.usings,
    membersWithoutSpans_of_membersMatch h.members]

/-- **Whatever stands in the body of a type, the source is read with the same declarations.** -/
theorem SourceFile.exists_parse_of_isBody {g : BracedText} {content : List Char}
    {front inner back front' inner' back' : List Token} (h : g.Divides front inner back)
    (h' : (g.withContent content).Divides front' inner' back') {file : SourceFile}
    (hfile : SourceFile.parse (String.ofList g.source) = .ok file) {d : TypeDeclaration}
    (hd : IsBody g.source (front ++ g.opener :: (inner ++ g.closer :: back)) d
      (g.opener :: (inner ++ g.closer :: back))) :
    ∃ file', SourceFile.parse (String.ofList (g.withContent content).source) = .ok file' ∧
      file.Matches .same file' := by
  obtain ⟨rfl, -⟩ := h.outside h'
  obtain ⟨braced, ordinal, s, hreaches, hdeclares⟩ := hd
  obtain ⟨header, head, hheader, hhead, hmark⟩ := hdeclares.starts
  rw [parse_of_tokenize h.tokens, String.toList_ofList] at hfile
  obtain ⟨b, hb, rfl⟩ := Lexer.eq_ok_of_map_eq_ok hfile
  rw [parse_of_tokenize h'.tokens, String.toList_ofList]
  obtain ⟨s', b₀, hbeside, hb₀, hdecides⟩ := Replacement.isDecided_of_reaches
    (R := g.replacement content) isLocal_matches hreaches
    (.of_guarded (BracedText.guarded hheader hhead hmark)) _ b (h.beside_front _ _) hb
  obtain ⟨b₀', hb₀', hagree₀⟩ := h.exists_agree h' hbeside hdeclares hb₀
  obtain ⟨b', hb', hagree⟩ := hdecides.agrees b₀' hb₀' hagree₀
  exact ⟨⟨b'.usings, b'.members⟩, congrArg (Functor.map _) hb', hagree.file⟩

end DoubleDispatch
