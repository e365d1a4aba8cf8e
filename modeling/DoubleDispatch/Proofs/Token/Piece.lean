import DoubleDispatch.Proofs.Text.Identifier
import DoubleDispatch.Proofs.Token.Locality

/-!
# Texts in pieces

A text that is put together from pieces: white space, words, punctuation marks, and groups of any
content between delimiters that match. Where no piece runs into the one behind it
(`Piece.Separated`), the text divides into tokens piece by piece (`Piece.tokenize_textOf`).

The content of a group is any text that divides into balanced tokens between the two delimiters. It
may hold comments, literals and directives, and its tokens are those it has on its own.
-/

namespace DoubleDispatch

open Text (byteLength)

/-! ### Words, marks and white space -/

/-- A word: an identifier or a keyword. -/
structure Word where
  name : String
  isIdentifier : Text.isIdentifier name.toList

/-- White space, or nothing. -/
structure Blank where
  text : List Char
  isBlank : ∀ c ∈ text, Text.isBlank c

namespace Blank

/-- One space. -/
def space : Blank := ⟨[' '], List.forall_mem_singleton.2 (by decide)⟩

/-- The indentation of a line: four spaces for each level. -/
def indent (depth : Nat) : Blank :=
  ⟨List.replicate (4 * depth) ' ', fun c hc ↦ by rw [List.eq_of_mem_replicate hc]; decide⟩

/-- The end of a line. -/
def lineBreak : Blank := ⟨['\n'], List.forall_mem_singleton.2 (by decide)⟩

end Blank

/-- The punctuation marks of declarations. -/
inductive Mark where
  | openBrace
  | closeBrace
  | openParen
  | closeParen
  | openBracket
  | closeBracket
  | less
  | greater
  | comma
  | semicolon
  | colon
  | doubleColon
  | dot
  | equals
deriving DecidableEq, Repr

namespace Mark

/-- The kind of token that a mark is. -/
def kind : Mark → TokenKind
  | openBrace => .openBrace
  | closeBrace => .closeBrace
  | openParen => .openParen
  | closeParen => .closeParen
  | openBracket => .openBracket
  | closeBracket => .closeBracket
  | less => .less
  | greater => .greater
  | comma => .comma
  | semicolon => .semicolon
  | colon => .colon
  | doubleColon => .doubleColon
  | dot => .dot
  | equals => .equals

/-- The characters of a mark. -/
def text : Mark → List Char
  | openBrace => ['\x7b']
  | closeBrace => ['\x7d']
  | openParen => ['(']
  | closeParen => [')']
  | openBracket => ['[']
  | closeBracket => [']']
  | less => ['<']
  | greater => ['>']
  | comma => [',']
  | semicolon => [';']
  | colon => [':']
  | doubleColon => [':', ':']
  | dot => ['.']
  | equals => ['=']

end Mark

/-! ### Groups -/

/-- Kinds of token in which every delimiter is closed by its own kind, innermost first. -/
inductive Balanced : List TokenKind → Prop
  | nil : Balanced []
  | cons {kind : TokenKind} {later : List TokenKind} (noOpener : kind.closer? = none)
      (noCloser : kind.isCloser = false) (inside : kind ≠ .endOfFile) (h : Balanced later) :
      Balanced (kind :: later)
  | group {opener closer : TokenKind} {content later : List TokenKind}
      (closes : opener.closer? = some closer) (hcontent : Balanced content)
      (hlater : Balanced later) :
      Balanced (opener :: content ++ closer :: later)

/-- The pairs of delimiters. -/
inductive Delimiter where
  | brace
  | paren
  | bracket
deriving DecidableEq, Repr

namespace Delimiter

/-- The mark that opens a group. -/
def opening : Delimiter → Mark
  | brace => .openBrace
  | paren => .openParen
  | bracket => .openBracket

/-- The mark that closes a group. -/
def closing : Delimiter → Mark
  | brace => .closeBrace
  | paren => .closeParen
  | bracket => .closeBracket

/-- A text between the two delimiters. -/
def enclose (d : Delimiter) (content : List Char) : List Char :=
  d.opening.text ++ content ++ d.closing.text

/-- The tokens of a text between the two delimiters: those of its content, and around them the
delimiters. -/
def around (d : Delimiter) (content : List Char) (tokens : List Token) : List Token :=
  (⟨d.opening.kind, ⟨0, 1⟩⟩ :: tokens) ++
    [⟨d.closing.kind, ⟨byteLength content + 1, byteLength content + 2⟩⟩]

/-- A group opens with the delimiter that its last token closes. -/
theorem closer?_opening (d : Delimiter) : d.opening.kind.closer? = some d.closing.kind := by
  cases d <;> rfl

end Delimiter

/-- A group: a content that divides into balanced tokens when it stands between the delimiters. -/
structure Group (d : Delimiter) where
  content : List Char
  tokens : List Token
  divides : tokenize (String.ofList (d.enclose content)) =
    .ok (d.around content tokens ++
      [⟨.endOfFile, ⟨byteLength content + 2, byteLength content + 2⟩⟩])
  balanced : Balanced (tokens.map (·.kind))

namespace Group

variable {d : Delimiter}

/-- The group with its delimiters. -/
def text (g : Group d) : List Char := d.enclose g.content

/-- The tokens of a group that starts at an offset. -/
def tokensAt (g : Group d) (n : Nat) : List Token :=
  (d.around g.content g.tokens).map (Token.moved n)

/-- The text of a group is its content and two delimiters of one byte. -/
theorem byteLength_text (g : Group d) : byteLength g.text = byteLength g.content + 2 := by
  obtain ⟨content, -, -, -⟩ := g
  have hone : byteLength d.opening.text = 1 ∧ byteLength d.closing.text = 1 := by
    cases d <;> exact ⟨rfl, rfl⟩
  rw [text, Delimiter.enclose, Text.byteLength_append, Text.byteLength_append, hone.1, hone.2]
  omega

end Group

/-! ### Pieces -/

/-- A piece of a text. -/
inductive Piece where
  | blank (b : Blank)
  | word (w : Word)
  | mark (m : Mark)
  | group {d : Delimiter} (g : Group d)

namespace Piece

/-- The characters of a piece. -/
def text : Piece → List Char
  | blank b => b.text
  | word w => w.name.toList
  | mark m => m.text
  | group g => g.text

/-- The text of pieces one after the other. -/
def textOf (ps : List Piece) : List Char := ps.flatMap text

/-- The tokens of a piece that starts at an offset. -/
def tokens (n : Nat) : Piece → List Token
  | blank _ => []
  | word w => [⟨.identifier w.name, ⟨n, n + byteLength w.name.toList⟩⟩]
  | mark m => [⟨m.kind, ⟨n, n + byteLength m.text⟩⟩]
  | group g => g.tokensAt n

/-- The tokens of pieces that start at an offset and run to the end of the file. -/
def tokensAt (n : Nat) : List Piece → List Token
  | [] => [⟨.endOfFile, ⟨n, n⟩⟩]
  | p :: ps => p.tokens n ++ tokensAt (n + byteLength p.text) ps

/-- Whether a piece would go on with a character that stands behind it. -/
def goesOn : Piece → Char → Bool
  | word _, c => Text.continuesIdentifier c
  | mark .colon, c => c == ':'
  | _, _ => false

/-- No piece goes on into the text behind it. -/
def Separated : List Piece → Prop
  | [] => True
  | p :: ps => (∀ c ∈ (textOf ps).head?, p.goesOn c = false) ∧ Separated ps

@[simp] theorem textOf_nil : textOf [] = [] := rfl

@[simp] theorem textOf_cons (p : Piece) (ps : List Piece) :
    textOf (p :: ps) = p.text ++ textOf ps := rfl

@[simp] theorem textOf_append (ps qs : List Piece) : textOf (ps ++ qs) = textOf ps ++ textOf qs :=
  List.flatMap_append

end Piece

/-! ### Lexing a piece -/

namespace Lexer

variable {lineStart : Bool} {n : Nat} {t : List Char}

/-- A character that is neither white space nor the sign of a directive starts a lexeme. -/
theorem step_of_visible {c : Char} (hblank : Text.isBlank c = false) (hsign : c ≠ '#') :
    step lineStart n c t = lexeme n c t := by
  rw [step, if_neg (Bool.eq_false_iff.1 hblank), if_neg (by simp [hsign])]

/-- At a character that may start an identifier, one is read. -/
theorem lexeme_identifier {c : Char} (h : Text.startsIdentifier c) :
    lexeme n c t = .ok (identifier n (c :: t)) := by
  have hne {d : Char} (hd : Text.startsIdentifier d = false) : c ≠ d :=
    Text.ne_of_startsIdentifier h hd
  have hslash : c ≠ '/' := hne (by decide)
  have hat : c ≠ '@' := hne (by decide)
  have hplain : IsPlain c t :=
    ⟨fun _ hc ↦ absurd hc hslash, fun _ hc ↦ absurd hc hslash, hne (by decide),
      fun _ hc ↦ absurd hc hat, fun _ hc ↦ absurd hc hat, hne (by decide),
      hne (by decide), fun _ hc ↦ absurd hc (hne (by decide))⟩
  rw [lexeme_of_isPlain hplain, plainLexeme, Text.isDigit_of_startsIdentifier h,
    if_neg Bool.false_ne_true, if_pos h]

/-- Blanks give no token. -/
theorem tokensFrom_blank (lineStart : Bool) (n : Nat) {s : List Char}
    (h : ∀ c ∈ s, Text.isBlank c) (t : List Char) :
    ∃ lineStart', tokensFrom lineStart n (s ++ t) = tokensFrom lineStart' (n + byteLength s) t := by
  induction s generalizing lineStart n with
  | nil => exact ⟨lineStart, rfl⟩
  | cons c s ih =>
    obtain ⟨hc, hs⟩ := List.forall_mem_cons.1 h
    obtain ⟨lineStart', hrest⟩ := ih (lineStart || c == '\n') (n + c.utf8Size) hs
    refine ⟨lineStart', ?_⟩
    rw [List.cons_append, tokensFrom_cons, step, if_pos hc]
    dsimp only
    rw [hrest, Text.byteLength_cons, Nat.add_assoc]

/-- An identifier is one token, if nothing behind it goes on with it. -/
theorem tokensFrom_word {s : List Char} (h : Text.isIdentifier s)
    (ht : ∀ c ∈ t.head?, Text.continuesIdentifier c = false) :
    tokensFrom lineStart n (s ++ t) =
      (⟨.identifier (String.ofList s), ⟨n, n + byteLength s⟩⟩ :: ·) <$>
        tokensFrom false (n + byteLength s) t := by
  have hall := Text.continuesIdentifier_of_isIdentifier h
  have htake : (s ++ t).takeWhile Text.continuesIdentifier = s := by
    rw [List.takeWhile_append_of_pos hall]
    cases t with
    | nil => simp
    | cons c t => simp [ht c rfl]
  have hdrop : (s ++ t).dropWhile Text.continuesIdentifier = t := by
    rw [List.dropWhile_append_of_pos hall]
    cases t with
    | nil => rfl
    | cons c t => exact List.dropWhile_cons_of_neg (by rw [ht c rfl]; nofun)
  obtain ⟨c, s', rfl, hc, -⟩ := Text.exists_cons_of_isIdentifier h
  have hblank : Text.isBlank c = false :=
    Text.isBlank_of_continuesIdentifier (Text.continuesIdentifier_of_startsIdentifier hc)
  have hsign : c ≠ '#' := Text.ne_of_startsIdentifier hc (by decide)
  have hstep : step lineStart n c (s' ++ t) = .ok (identifier n (c :: s' ++ t)) := by
    rw [step_of_visible hblank hsign, lexeme_identifier hc]
    rfl
  rw [List.cons_append, tokensFrom_cons, hstep]
  simp only [identifier, Literal.skipWhile_eq, htake, hdrop]

/-- A mark is one token, if nothing behind it goes on with it. -/
theorem tokensFrom_mark (m : Mark) (ht : ∀ c ∈ t.head?, (Piece.mark m).goesOn c = false) :
    tokensFrom lineStart n (m.text ++ t) =
      (⟨m.kind, ⟨n, n + byteLength m.text⟩⟩ :: ·) <$>
        tokensFrom false (n + byteLength m.text) t := by
  by_cases hm : m = .colon
  · subst hm
    have hcolon : ∀ s, t ≠ ':' :: s := by
      rintro s rfl
      cases ht ':' rfl
    have hplain : IsPlain ':' t :=
      ⟨nofun, nofun, by decide, nofun, nofun, by decide, by decide, fun s _ ↦ hcolon s⟩
    have hstep : step lineStart n ':' t = .ok (plainLexeme n ':' t) := by
      rw [step_of_visible (by decide) (by decide), lexeme_of_isPlain hplain]
    rw [Mark.text, List.singleton_append, tokensFrom_cons, hstep]
    rfl
  · cases m with
    | colon => exact absurd rfl hm
    | _ => exact tokensFrom_cons _ _ _ _

/-- Where a group starts, it does not matter what stands before it on the line. -/
theorem tokensFrom_enclose (d : Delimiter) (s : List Char) :
    tokensFrom lineStart n (d.enclose s ++ t) = tokensFrom true n (d.enclose s ++ t) := by
  have hopen (lineStart : Bool) : tokensFrom lineStart n
      (d.opening.text ++ (s ++ d.closing.text ++ t)) = _ :=
    tokensFrom_mark d.opening (by cases d <;> exact fun _ _ ↦ rfl)
  rw [Delimiter.enclose, List.append_assoc, List.append_assoc, ← List.append_assoc s, hopen, hopen]

/-- **A group has its own tokens** wherever it stands. -/
theorem tokensFrom_group {d : Delimiter} (g : Group d) :
    tokensFrom lineStart n (g.text ++ t) =
      (g.tokensAt n ++ ·) <$> tokensFrom false (n + byteLength g.text) t := by
  obtain ⟨close, hclose, hkind, hcloser⟩ : ∃ close, d.closing.text = [close] ∧
      punctuation close = d.closing.kind ∧ (punctuation close).isCloser := by
    cases d
    · exact ⟨'\x7d', rfl, rfl, rfl⟩
    · exact ⟨')', rfl, rfl, rfl⟩
    · exact ⟨']', rfl, rfl, rfl⟩
  have hlast : g.text.getLast? = some close := by
    rw [Group.text, Delimiter.enclose, hclose]
    exact List.getLast?_concat
  have hdivides := g.divides
  rw [tokenize, String.toList_ofList, Delimiter.around, List.append_assoc, ← hkind] at hdivides
  have hlength : 0 + byteLength g.text = byteLength g.content + 1 + 1 := by
    rw [g.byteLength_text]
    omega
  have hmoved := tokensFrom_moved (k := n) hcloser hlast hlength hdivides t
  have hstop : byteLength g.content + 1 + 1 + n = n + byteLength g.text := by
    rw [g.byteLength_text]
    omega
  rw [hkind, hstop, Nat.zero_add] at hmoved
  exact (tokensFrom_enclose d g.content).trans hmoved

end Lexer

/-! ### Texts in pieces -/

namespace Piece

open Lexer (tokensFrom)

/-- One piece divides into its own tokens. -/
theorem tokensFrom_text (p : Piece) (lineStart : Bool) (n : Nat) {t : List Char}
    (ht : ∀ c ∈ t.head?, p.goesOn c = false) :
    ∃ lineStart', tokensFrom lineStart n (p.text ++ t) =
      (p.tokens n ++ ·) <$> tokensFrom lineStart' (n + byteLength p.text) t := by
  cases p with
  | blank b =>
    obtain ⟨lineStart', hrest⟩ := Lexer.tokensFrom_blank lineStart n b.isBlank t
    refine ⟨lineStart', hrest.trans ?_⟩
    exact (id_map _).symm
  | word w =>
    refine ⟨false, (Lexer.tokensFrom_word w.isIdentifier ht).trans ?_⟩
    rw [String.ofList_toList]
    rfl
  | mark m => exact ⟨false, Lexer.tokensFrom_mark m ht⟩
  | group g => exact ⟨false, Lexer.tokensFrom_group g⟩

/-- **Separate pieces have the tokens of each in turn**, by induction on the pieces. -/
theorem tokensFrom_textOf {ps : List Piece} (h : Separated ps) (lineStart : Bool) (n : Nat) :
    tokensFrom lineStart n (textOf ps) = .ok (tokensAt n ps) := by
  induction ps generalizing lineStart n with
  | nil =>
    rw [textOf_nil, tokensFrom]
    rfl
  | cons p ps ih =>
    obtain ⟨hp, hps⟩ := h
    obtain ⟨lineStart', htext⟩ := p.tokensFrom_text lineStart n hp
    rw [textOf_cons, htext, ih hps]
    rfl

/-- **A text in separate pieces divides into the tokens of its pieces.** -/
theorem tokenize_textOf {ps : List Piece} (h : Separated ps) :
    tokenize (String.ofList (textOf ps)) = .ok (tokensAt 0 ps) := by
  rw [tokenize, String.toList_ofList]
  exact tokensFrom_textOf h true 0

/-! ### Where pieces are separate -/

/-- No word goes on into the text of these pieces. -/
def Breaks (ps : List Piece) : Prop :=
  ∀ c ∈ (textOf ps).head?, Text.continuesIdentifier c = false

variable {ps : List Piece}

@[simp] theorem breaks_mark (m : Mark) : Breaks (.mark m :: ps) := by
  cases m <;> (rintro c ⟨⟩; decide)

@[simp] theorem breaks_group {d : Delimiter} (g : Group d) : Breaks (.group g :: ps) := by
  cases d <;> (rintro c ⟨⟩; decide)

@[simp] theorem breaks_space : Breaks (.blank .space :: ps) := by
  rintro c ⟨⟩
  decide

@[simp] theorem breaks_lineBreak : Breaks (.blank .lineBreak :: ps) := by
  rintro c ⟨⟩
  decide

@[simp] theorem separated_blank {b : Blank} : Separated (.blank b :: ps) ↔ Separated ps :=
  and_iff_right fun _ _ ↦ rfl

/-- A word is separate from pieces that do not go on with it. -/
@[simp] theorem separated_word {w : Word} :
    Separated (.word w :: ps) ↔ Breaks ps ∧ Separated ps :=
  Iff.rfl

@[simp] theorem separated_group {d : Delimiter} {g : Group d} :
    Separated (.group g :: ps) ↔ Separated ps :=
  and_iff_right fun _ _ ↦ rfl

@[simp] theorem separated_mark {m : Mark} (hm : m ≠ .colon) :
    Separated (.mark m :: ps) ↔ Separated ps := by
  refine and_iff_right fun c _ ↦ ?_
  cases m with
  | colon => exact absurd rfl hm
  | _ => rfl

/-- A colon stands by itself if a space follows. -/
@[simp] theorem separated_colon_space :
    Separated (.mark .colon :: .blank .space :: ps) ↔ Separated ps := by
  refine (and_iff_right ?_).trans separated_blank
  rintro c ⟨⟩
  rfl

end Piece

end DoubleDispatch
