import DoubleDispatch.Proofs.Text.Identifier
import DoubleDispatch.Proofs.Token.Progress
import Mathlib.Data.List.TakeWhile

/-!
# Tokens and the gaps between them

Nothing of a source is lost between two tokens but what means nothing: white space, comments, and
lines that start with `#` (`IsGap`). What belongs to a token is the text of its kind, and for an
identifier its name, with an `@` before it or without (`TokenKind.IsSpelled`). So the tokens of a
source and the gaps around them, put one behind the other, are the source (`Tiling`).

Whether a `#` starts a line of its own is what the lexer's flag is for. It stands either behind the
white space at the start of a line, or at the end of a directive (`MayStartLine`).
-/

namespace DoubleDispatch

open Text (byteLength IsBoundary)

/-! ### What means nothing -/

/-- What lies ahead of the end of a line: its line break, or nothing at all. -/
def EndsLine (ahead : List Char) : Prop := ∀ c ∈ ahead.head?, c = '\n'

/-- Only white space stands between the start of a line and the end of the text. -/
def AtLineStart (before : List Char) : Prop :=
  ∃ lines indent, before = lines ++ indent ∧ (∀ c ∈ lines.getLast?, c = '\n') ∧
    ∀ c ∈ indent, Text.isBlank c

/-- A piece of text that belongs to no token, between the text before it and the text behind it. -/
inductive IsTrivia (before behind : List Char) : List Char → Prop
  | blank {c : Char} (isBlank : Text.isBlank c) : IsTrivia before behind [c]
  /-- A comment goes up to the end of its line. -/
  | lineComment {body : List Char} (line : '\n' ∉ body) (ends : EndsLine behind) :
    IsTrivia before behind ('/' :: '/' :: body)
  /-- A comment goes up to the first mark that ends it. -/
  | blockComment {body : List Char} (first : ¬ ['*', '/'] <:+: body) :
    IsTrivia before behind ('/' :: '*' :: body ++ ['*', '/'])
  /-- A directive is a whole line, up to the white space at its start. -/
  | directive {body : List Char} (starts : AtLineStart before) (line : '\n' ∉ body)
    (ends : EndsLine behind) : IsTrivia before behind ('#' :: body)

/-- A text that consists only of pieces that belong to no token. -/
inductive IsGap : (before gap behind : List Char) → Prop
  | nil {before behind : List Char} : IsGap before [] behind
  | cons {before piece gap behind : List Char} (trivia : IsTrivia before (gap ++ behind) piece)
    (later : IsGap (before ++ piece) gap behind) : IsGap before (piece ++ gap) behind

namespace AtLineStart

theorem nil : AtLineStart [] := ⟨[], [], rfl, nofun, nofun⟩

theorem append_lineBreak (before : List Char) : AtLineStart (before ++ ['\n']) :=
  ⟨before ++ ['\n'], [], (List.append_nil _).symm, by simp, nofun⟩

/-- A blank keeps the start of a line. -/
theorem append_blank {before : List Char} (h : AtLineStart before) {c : Char}
    (hc : Text.isBlank c) : AtLineStart (before ++ [c]) := by
  obtain ⟨lines, indent, rfl, hlines, hindent⟩ := h
  refine ⟨lines, indent ++ [c], List.append_assoc _ _ _, hlines, fun d hd ↦ ?_⟩
  rcases List.mem_append.1 hd with hd | hd
  · exact hindent d hd
  · rwa [List.mem_singleton.1 hd]

end AtLineStart

/-! ### What belongs to a token -/

/-- The text of an identifier without the `@` that makes a verbatim one of it. -/
def withoutAt : List Char → List Char
  | '@' :: s => s
  | s => s

/-- The texts that a token of a kind may have. -/
inductive TokenKind.IsSpelled : TokenKind → List Char → Prop
  | word {name : String} (isIdentifier : Text.isIdentifier name.toList) :
    IsSpelled (.identifier name) name.toList
  | verbatim {name : String} (isIdentifier : Text.isIdentifier name.toList) :
    IsSpelled (.identifier name) ('@' :: name.toList)
  | literal {text : List Char} : IsSpelled .literal text
  | mark {kind : TokenKind} {text : String} (name?_eq : kind.name? = none)
    (spelling?_eq : kind.spelling? = some text) : IsSpelled kind text.toList

namespace TokenKind.IsSpelled

variable {kind : TokenKind} {name text : String} {s : List Char}

theorem isIdentifier (h : IsSpelled (.identifier name) s) : Text.isIdentifier name.toList := by
  cases h with
  | word h => exact h
  | verbatim h => exact h
  | mark hname => cases hname

/-- The name of an identifier is its spelling without the at sign. -/
theorem withoutAt_eq (h : IsSpelled (.identifier name) s) : withoutAt s = name.toList := by
  cases h with
  | word h =>
    obtain ⟨c, t, heq, hc, -⟩ := Text.exists_cons_of_isIdentifier h
    have hat : c ≠ '@' := Text.ne_of_startsIdentifier hc (by decide)
    rw [heq, withoutAt]
    exact fun _ hcons ↦ hat (List.cons.inj hcons).1
  | verbatim => rfl
  | mark hname => cases hname

/-- A token of a kind with one spelling is spelled so. -/
theorem eq_toList (h : IsSpelled kind s) (hname : kind.name? = none)
    (hspelling : kind.spelling? = some text) : s = text.toList := by
  cases h with
  | word => cases hname
  | verbatim => cases hname
  | literal => cases hspelling
  | mark _ hspelled => rw [Option.some.inj (hspelled.symm.trans hspelling)]

end TokenKind.IsSpelled

/-! ### Lexemes -/

namespace Literal

theorem notMem_takeWhile_line (s : List Char) : '\n' ∉ s.takeWhile (· != '\n') := by
  intro h
  simpa using List.mem_takeWhile_imp h

theorem endsLine_dropWhile (s : List Char) : EndsLine (s.dropWhile (· != '\n')) := by
  intro c hc
  have hhead := List.head?_dropWhile_not (· != '\n') s
  rw [hc] at hhead
  simpa using hhead

/-- A block comment goes up to the first mark that ends one. -/
theorem exists_body_of_blockComment {n : Nat} {s : List Char} {next : Cursor}
    (h : blockComment n s = .ok next) :
    ∃ body, Cursor.Spells ⟨n, s⟩ (body ++ ['*', '/']) next ∧ ¬ ['*', '/'] <:+: body := by
  fun_induction blockComment n s with
  | case1 => cases h
  | case2 n s =>
    cases h
    exact ⟨[], ⟨rfl, rfl⟩, by simp⟩
  | case3 n c s hmark ih =>
    obtain ⟨body, hspells, hfirst⟩ := ih h
    refine ⟨c :: body, (Cursor.Spells.cons n c s).trans hspells, ?_⟩
    rw [List.infix_cons_iff]
    rintro (⟨t, ht⟩ | hlater)
    · obtain ⟨rfl, rfl⟩ : c = '*' ∧ body = '/' :: t := by simpa [eq_comm] using ht
      exact hmark _ rfl hspells.1
    · exact hfirst hlater

end Literal

namespace Lexer

/-- The lexer's flag is only set where a directive may stand, or where one has just ended. -/
def MayStartLine (lineStart : Bool) (before ahead : List Char) : Prop :=
  lineStart → AtLineStart before ∨ EndsLine ahead

/-- What a step passes over, behind the text before it: a piece of a gap or the text of a token. -/
def Takes (before passed : List Char) (st : Step) : Prop :=
  MayStartLine st.lineStart (before ++ passed) st.next.rest ∧
    match st.kind? with
    | none => IsTrivia before st.next.rest passed
    | some kind => kind.IsSpelled passed

variable {before : List Char}

/-- Behind a comment or a token no line starts. -/
theorem MayStartLine.of_false {ahead : List Char} : MayStartLine false before ahead := nofun

/-- An identifier is taken whole, under the name it spells. -/
theorem exists_takes_identifier {n : Nat} {c : Char} {s : List Char}
    (hc : Text.startsIdentifier c) :
    ∃ name : String, Text.isIdentifier name.toList ∧
      (identifier n (c :: s)).kind? = some (.identifier name) ∧
      Cursor.Spells ⟨n, c :: s⟩ name.toList (identifier n (c :: s)).next := by
  have hcontinues := Text.continuesIdentifier_of_startsIdentifier hc
  refine ⟨_, ?_, rfl, ?_⟩
  · rw [String.toList_ofList, List.takeWhile_cons_of_pos hcontinues]
    exact Text.isIdentifier_cons.2 ⟨hc, fun d hd ↦ List.mem_takeWhile_imp hd⟩
  · rw [String.toList_ofList]
    exact Literal.spells_skipWhile _ _ _

/-- A literal may be any text. -/
theorem exists_takes_literal {a next : Cursor} (h : a.Reaches next) :
    ∃ passed, a.Spells passed next ∧ Takes before passed (literal next) := by
  obtain ⟨passed, hspells⟩ := h
  exact ⟨passed, hspells, .of_false, .literal⟩

/-- A mark is spelled as the character it was read from. -/
theorem isSpelled_punctuation (c : Char) : (punctuation c).IsSpelled [c] := by
  have hspelling : (punctuation c).name? = none ∧
      (punctuation c).spelling? = some (String.singleton c) := by
    unfold punctuation
    split <;> exact ⟨rfl, rfl⟩
  simpa using TokenKind.IsSpelled.mark hspelling.1 hspelling.2

/-- What a lexer skips up to the end of a line. -/
theorem spells_skipLine (n : Nat) (s : List Char) :
    ∃ body, Cursor.Spells ⟨n, s⟩ body (skipLine n s) ∧ '\n' ∉ body ∧
      EndsLine (skipLine n s).rest := by
  refine ⟨_, Literal.spells_skipWhile _ n s, Literal.notMem_takeWhile_line s, ?_⟩
  rw [skipLine, Literal.skipWhile_eq]
  exact Literal.endsLine_dropWhile s

/-- Each branch of the lexer takes a stretch that is a gap or spells its token. -/
theorem exists_takes_lexeme {n : Nat} {c : Char} {s : List Char} {st : Step}
    (h : lexeme n c s = .ok st) :
    ∃ passed, Cursor.Spells ⟨n, c :: s⟩ passed st.next ∧ Takes before passed st := by
  have hgoes := ahead_lexeme n c s
  rw [h] at hgoes
  have hreaches := hgoes.reaches
  clear hgoes
  revert h
  fun_cases lexeme n c s with intro h
  | case1 s =>
    cases h
    obtain ⟨body, hspells, hline, hends⟩ := spells_skipLine (n + 2) s
    exact ⟨'/' :: '/' :: body, (Cursor.Spells.ascii₂ (by decide) (by decide)).trans hspells,
      .of_false, .lineComment hline hends⟩
  | case2 s =>
    obtain ⟨next, hcomment, rfl⟩ := eq_ok_of_map_eq_ok h
    obtain ⟨body, hspells, hfirst⟩ := Literal.exists_body_of_blockComment hcomment
    exact ⟨'/' :: '*' :: body ++ ['*', '/'],
      (Cursor.Spells.ascii₂ (by decide) (by decide)).trans hspells, .of_false, .blockComment hfirst⟩
  | case3 | case4 | case5 | case6 | case7 =>
    obtain ⟨next, -, rfl⟩ := eq_ok_of_map_eq_ok h
    exact exists_takes_literal hreaches
  | case8 s =>
    cases h
    have hspelled : TokenKind.doubleColon.IsSpelled "::".toList := .mark rfl rfl
    exact ⟨[':', ':'], ⟨rfl, rfl⟩, .of_false, hspelled⟩
  | case9 =>
    cases h
    exact exists_takes_literal hreaches
  | case10 c s _ _ _ _ _ _ _ _ _ hc =>
    cases h
    obtain ⟨name, hname, hkind, hspells⟩ := exists_takes_identifier (n := n) (s := s) hc
    exact ⟨_, hspells, .of_false, by rw [hkind]; exact .word hname⟩
  | case11 c s _ _ _ _ _ _ _ _ _ _ hc =>
    cases h
    obtain ⟨rfl, hstarts⟩ : c = '@' ∧ s.head?.any Text.startsIdentifier := by
      simpa only [Bool.and_eq_true, decide_eq_true_eq] using hc
    obtain _ | ⟨d, s⟩ := s
    · cases hstarts
    obtain ⟨name, hname, hkind, hspells⟩ :=
      exists_takes_identifier (n := n + 1) (s := s) (c := d) hstarts
    exact ⟨'@' :: name.toList, (Cursor.Spells.ascii (by decide)).trans hspells, .of_false,
      by rw [hkind]; exact .verbatim hname⟩
  | case12 c s =>
    cases h
    exact ⟨[c], ⟨rfl, rfl⟩, .of_false, isSpelled_punctuation c⟩

/-- **One step passes over a piece of a gap or over the text of a token**, and the flag is right
behind it if it was right before. -/
theorem exists_takes_step {lineStart : Bool} {n : Nat} {c : Char} {s : List Char} {st : Step}
    (hflag : MayStartLine lineStart before (c :: s)) (h : step lineStart n c s = .ok st) :
    ∃ passed, Cursor.Spells ⟨n, c :: s⟩ passed st.next ∧ Takes before passed st := by
  unfold step at h
  split at h
  next hblank =>
    cases h
    refine ⟨[c], ⟨rfl, rfl⟩, fun hstart ↦ .inl ?_, .blank hblank⟩
    rcases Bool.or_eq_true_iff.1 hstart with hstart | hbreak
    · rcases hflag hstart with hstart | hends
      · exact hstart.append_blank hblank
      · rw [hends c rfl]
        exact .append_lineBreak before
    · rw [beq_iff_eq.1 hbreak]
      exact .append_lineBreak before
  next =>
    split at h
    next hdirective =>
      cases h
      obtain ⟨rfl, hstart⟩ : c = '#' ∧ lineStart = true := by simpa using hdirective
      have hstarts : AtLineStart before := (hflag hstart).resolve_right fun hends ↦
        absurd (hends '#' rfl) (by decide)
      obtain ⟨body, hspells, hline, hends⟩ := spells_skipLine (n + 1) s
      exact ⟨'#' :: body, (Cursor.Spells.ascii (by decide)).trans hspells, fun _ ↦ .inr hends,
        .directive hstarts hline hends⟩
    next => exact exists_takes_lexeme h

end Lexer

/-! ### Tilings -/

/-- Behind the text before them, the tokens and the gaps around them are the text ahead. -/
inductive Tiling : (before ahead : List Char) → List Token → Prop
  | endOfFile {before gap : List Char} (isGap : IsGap before gap []) :
    Tiling before gap [⟨.endOfFile, ⟨byteLength (before ++ gap), byteLength (before ++ gap)⟩⟩]
  | token {before gap text ahead : List Char} {kind : TokenKind} {ts : List Token}
    (isGap : IsGap before gap (text ++ ahead)) (spelled : kind.IsSpelled text)
    (later : Tiling (before ++ gap ++ text) ahead ts) :
    Tiling before (gap ++ (text ++ ahead))
      (⟨kind, ⟨byteLength (before ++ gap), byteLength (before ++ gap ++ text)⟩⟩ :: ts)

/-- The spans between the tokens, from an offset on: one before each token. -/
def gapsFrom (n : Nat) : List Token → List Span
  | [] => []
  | t :: ts => ⟨n, t.span.start⟩ :: gapsFrom t.span.stop ts

/-- What stands in the middle of a text is the slice of it there. -/
theorem slice_middle (before s behind : List Char) :
    Text.slice (byteLength before) (byteLength (before ++ s)) (before ++ (s ++ behind)) = s := by
  rw [Text.byteLength_append, Text.slice_append]

namespace Tiling

variable {before piece ahead : List Char} {tokens : List Token}

/-- A piece that belongs to no token lengthens the first gap. -/
theorem cons_trivia (hpiece : IsTrivia before ahead piece)
    (h : Tiling (before ++ piece) ahead tokens) : Tiling before (piece ++ ahead) tokens := by
  cases h with
  | endOfFile hgap =>
    rw [List.append_assoc]
    exact .endOfFile (.cons (by rwa [List.append_nil]) hgap)
  | @token _ gap text ahead _ _ hgap hspelled hlater =>
    rw [List.append_assoc before] at hlater ⊢
    rw [← List.append_assoc piece]
    exact .token (.cons hpiece hgap) hspelled hlater

/-- Between the tokens of a tiling stand gaps. -/
theorem isGap (h : Tiling before ahead tokens) : ∀ gap ∈ gapsFrom (byteLength before) tokens,
    IsGap (Text.takeBytes gap.start (before ++ ahead))
      (Text.slice gap.start gap.stop (before ++ ahead))
      (Text.dropBytes gap.stop (before ++ ahead)) := by
  have hcut {before gap behind : List Char} (h : IsGap before gap behind) :
      IsGap (Text.takeBytes (byteLength before) (before ++ (gap ++ behind)))
        (Text.slice (byteLength before) (byteLength (before ++ gap)) (before ++ (gap ++ behind)))
        (Text.dropBytes (byteLength (before ++ gap)) (before ++ (gap ++ behind))) := by
    rwa [Text.takeBytes_append, slice_middle, ← List.append_assoc, Text.dropBytes_append]
  induction h with
  | @endOfFile before gap hgap =>
    have hends := hcut hgap
    rw [List.append_nil] at hends
    exact List.forall_mem_singleton.2 hends
  | token hgap _ _ ih =>
    simp only [List.append_assoc] at ih ⊢
    exact List.forall_mem_cons.2 ⟨hcut hgap, ih⟩

/-- Each token of a tiling spells the stretch under its span. -/
theorem isSpelled (h : Tiling before ahead tokens) : ∀ t ∈ tokens, t.kind ≠ .endOfFile →
    t.kind.IsSpelled (Text.slice t.span.start t.span.stop (before ++ ahead)) := by
  induction h with
  | endOfFile => exact List.forall_mem_singleton.2 fun h ↦ absurd rfl h
  | @token before gap text ahead _ _ _ hspelled _ ih =>
    have hslice := slice_middle (before ++ gap) text ahead
    simp only [List.append_assoc] at ih hslice ⊢
    refine List.forall_mem_cons.2 ⟨fun _ ↦ ?_, ih⟩
    rwa [hslice]

end Tiling

namespace Lexer

/-- The tokens read from a place on tile what is ahead of it. -/
theorem tiling_tokensFrom {before : List Char} {lineStart : Bool} {s : List Char}
    {tokens : List Token} (hflag : MayStartLine lineStart before s)
    (h : tokensFrom lineStart (byteLength before) s = .ok tokens) : Tiling before s tokens := by
  generalize hn : byteLength before = n at h
  revert h
  fun_induction tokensFrom lineStart n s generalizing before tokens with intro h
  | case1 =>
    cases h
    subst hn
    simpa using Tiling.endOfFile (@IsGap.nil before [])
  | case2 => cases h
  | case3 lineStart n c s st hstep _ hkind ih =>
    obtain ⟨passed, ⟨hrest, hoffset⟩, hflag', htrivia⟩ := exists_takes_step hflag hstep
    rw [hkind] at htrivia
    have hrest : c :: s = passed ++ st.next.rest := hrest
    rw [hrest]
    exact (ih hflag' (by rw [Text.byteLength_append, hn, hoffset]) h).cons_trivia htrivia
  | case4 lineStart n c s st hstep _ kind hkind ih =>
    obtain ⟨text, ⟨hrest, hoffset⟩, hflag', hspelled⟩ := exists_takes_step hflag hstep
    obtain ⟨ts, hts, rfl⟩ := eq_ok_of_map_eq_ok h
    rw [hkind] at hspelled
    have hrest : c :: s = text ++ st.next.rest := hrest
    have hlen : byteLength (before ++ text) = st.next.offset := by
      rw [Text.byteLength_append, hn, hoffset]
    rw [hrest, ← hn, ← hlen]
    simpa using Tiling.token .nil hspelled (by simpa using ih hflag' hlen hts)

end Lexer

/-- A source as a whole is tiled. -/
theorem tiling_of_tokenize {source : String} {tokens : List Token}
    (h : tokenize source = .ok tokens) : Tiling [] source.toList tokens :=
  Lexer.tiling_tokensFrom (fun _ ↦ .inl .nil) h

/-- The name of an identifier that is read from a source is one. -/
theorem isIdentifier_of_tokenize {source : String} {tokens : List Token}
    (h : tokenize source = .ok tokens) {t : Token} (ht : t ∈ tokens) {name : String}
    (hkind : t.kind = .identifier name) : Text.isIdentifier name.toList := by
  have hspelled := (tiling_of_tokenize h).isSpelled t ht (by rw [hkind]; nofun)
  rw [hkind] at hspelled
  exact hspelled.isIdentifier

/-- Tokens stand one behind the other, and no two start at the same place. -/
theorem TokensFrom.pairwise {source : List Char} {n : Nat} {tokens : List Token}
    (h : TokensFrom source n tokens) :
    tokens.Pairwise fun t u ↦ t.span.stop ≤ u.span.start ∧ t.span.start < u.span.start := by
  induction h with
  | endOfFile => exact List.pairwise_singleton _ _
  | cons _ _ stands later ih =>
    refine ih.cons fun u hu ↦ ?_
    have hle := later.start_le u hu
    exact ⟨hle, Nat.lt_of_lt_of_le stands.lt hle⟩

/-- **Tokens tile the source.** The end of the file is the last token and no other, and stands
behind the last character. Every other token has characters of its own, and begins and ends between
characters. Tokens stand one behind the other, and what is around them is white space, comments
and directive lines. A token has the text of its kind, and an identifier its name, which may have
an `@` before it. -/
theorem tokenize_tiles {source : String} {tokens : List Token} (h : tokenize source = .ok tokens) :
    (∃ front, tokens = front ++ [⟨.endOfFile, ⟨source.utf8ByteSize, source.utf8ByteSize⟩⟩] ∧
      ∀ t ∈ front, t.kind ≠ .endOfFile ∧ t.span.start < t.span.stop ∧
        IsBoundary source.toList t.span.start ∧ IsBoundary source.toList t.span.stop) ∧
    (tokens.Pairwise fun t u ↦ t.span.stop ≤ u.span.start ∧ t.span.start < u.span.start) ∧
    (∀ gap ∈ gapsFrom 0 tokens, IsGap (Text.takeBytes gap.start source.toList)
      (Text.slice gap.start gap.stop source.toList) (Text.dropBytes gap.stop source.toList)) ∧
    ∀ t ∈ tokens, let text := Text.slice t.span.start t.span.stop source.toList
      (∀ name, t.kind = .identifier name → name.toList = withoutAt text) ∧
      (t.kind.name? = none → ∀ spelling, t.kind.spelling? = some spelling →
        text = spelling.toList) := by
  have htokens := tokensFrom_of_tokenize h
  have htiling := tiling_of_tokenize h
  refine ⟨?_, htokens.pairwise, htiling.isGap,
    fun t ht ↦ ⟨fun name hname ↦ ?_, fun hname w hw ↦ ?_⟩⟩
  · obtain ⟨front, rfl, hfront⟩ := htokens.exists_eq_concat
    refine ⟨front, by rw [Text.byteLength_toList], fun t ht ↦ ?_⟩
    obtain ⟨hkind, hstands⟩ := hfront t ht
    exact ⟨hkind, hstands.lt, hstands.fits.start, hstands.fits.stop⟩
  · have hspelled := htiling.isSpelled t ht (by rw [hname]; nofun)
    rw [hname] at hspelled
    exact hspelled.withoutAt_eq.symm
  · have hspelled := htiling.isSpelled t ht (by rintro heq; rw [heq] at hw; cases hw)
    exact hspelled.eq_toList hname hw

/-- A source with a directive line, comments of both forms, a verbatim identifier, and literals that
hold what would be trivia outside them. -/
def tiledSample : String := " #if \"é\n@é/* # *** */= \"//\"::'\\''#// x"

/-- The `#` behind the literals is punctuation, and the comment at the end stands before the end of
the file. -/
theorem tokenize_tiles_sample :
    ∃ tokens, tokenize tiledSample = .ok tokens ∧
      (∃ front, tokens =
        front ++ [⟨.endOfFile, ⟨tiledSample.utf8ByteSize, tiledSample.utf8ByteSize⟩⟩]) ∧
      tokens.map (fun t ↦ Text.slice t.span.start t.span.stop tiledSample.toList) =
        ["@é", "=", "\"//\"", "::", "'\\''", "#", ""].map String.toList ∧
      (gapsFrom 0 tokens).map (fun gap ↦ Text.slice gap.start gap.stop tiledSample.toList) =
        [" #if \"é\n", "/* # *** */", " ", "", "", "", "// x"].map String.toList ∧
      ∀ gap ∈ gapsFrom 0 tokens, IsGap (Text.takeBytes gap.start tiledSample.toList)
        (Text.slice gap.start gap.stop tiledSample.toList)
        (Text.dropBytes gap.stop tiledSample.toList) := by
  have htexts : (fun tokens ↦
      (tokens.map (fun t ↦ Text.slice t.span.start t.span.stop tiledSample.toList),
        (gapsFrom 0 tokens).map fun gap ↦ Text.slice gap.start gap.stop tiledSample.toList)) <$>
      tokenize tiledSample =
      .ok (["@é", "=", "\"//\"", "::", "'\\''", "#", ""].map String.toList,
        [" #if \"é\n", "/* # *** */", " ", "", "", "", "// x"].map String.toList) := by
    decide +kernel
  obtain ⟨tokens, hok, htexts⟩ := Lexer.eq_ok_of_map_eq_ok htexts
  obtain ⟨⟨front, heq, -⟩, -, hgaps, -⟩ := tokenize_tiles hok
  exact ⟨tokens, hok, ⟨front, heq⟩, congrArg Prod.fst htexts, congrArg Prod.snd htexts, hgaps⟩

end DoubleDispatch
