import DoubleDispatch.Proofs.Token.Piece

/-!
# Groups made of pieces

The content of a group may be anything that divides into balanced tokens. Here it is put together
from pieces, none of which is a delimiter by itself: words, other marks, white space and smaller
groups. A text with such pieces (`IsContent`) becomes a group between any two delimiters
(`IsContent.exists_group`), and that group may be part of the content of the next one.
-/

namespace DoubleDispatch

open Text (byteLength)

namespace Piece

/-! ### Tokens of a content -/

/-- The tokens of pieces that start at an offset. -/
def tokensOf (n : Nat) : List Piece → List Token
  | [] => []
  | p :: ps => p.tokens n ++ tokensOf (n + byteLength p.text) ps

/-- The tokens of pieces in sequence follow each other, the later ones behind the text of the first.
-/
theorem tokensAt_append (n : Nat) (ps qs : List Piece) :
    tokensAt n (ps ++ qs) = tokensOf n ps ++ tokensAt (n + byteLength (textOf ps)) qs := by
  induction ps generalizing n with
  | nil => rfl
  | cons p ps ih =>
    rw [List.cons_append, tokensAt, ih, tokensOf, List.append_assoc, textOf_cons,
      Text.byteLength_append, Nat.add_assoc]

/-- A piece that is not a delimiter by itself. -/
def IsBalanced : Piece → Prop
  | mark m => m.kind.closer? = none ∧ m.kind.isCloser = false
  | _ => True

/-- Pieces that are balanced one by one are balanced together. -/
theorem balanced_tokensOf {ps : List Piece} (h : ∀ p ∈ ps, p.IsBalanced) (n : Nat) :
    Balanced ((tokensOf n ps).map (·.kind)) := by
  induction ps generalizing n with
  | nil => exact .nil
  | cons p ps ih =>
    obtain ⟨hp, hps⟩ := List.forall_mem_cons.1 h
    have hlater := ih hps (n + byteLength p.text)
    cases p with
    | blank b => exact hlater
    | word w => exact .cons rfl rfl (by rintro ⟨⟩) hlater
    | mark m =>
      have hinside : m.kind ≠ .endOfFile := by cases m <;> decide
      exact .cons hp.1 hp.2 hinside hlater
    | @group d g =>
      have hgroup := Balanced.group d.closer?_opening g.balanced hlater
      rw [tokensOf, List.map_append, tokens, Group.tokensAt, Delimiter.around, List.map_map]
      simpa [Token.moved, Function.comp_def] using hgroup

/-! ### Pieces behind pieces -/

/-- No piece goes on into this text. -/
def Ends (s : List Char) : Prop := ∀ c ∈ s.head?, ∀ p : Piece, p.goesOn c = false

theorem ends_nil : Ends [] := by
  rintro _ ⟨⟩

/-- A word or a colon ends before any other character. -/
theorem ends_cons {c : Char} (hword : Text.continuesIdentifier c = false) (hcolon : c ≠ ':')
    (s : List Char) : Ends (c :: s) := by
  rintro _ ⟨⟩ p
  cases p with
  | word w => exact hword
  | mark m =>
    cases m with
    | colon => exact beq_eq_false_iff_ne.2 hcolon
    | _ => rfl
  | _ => rfl

/-- Separate pieces stay separate when no piece goes on into what follows. -/
theorem Separated.append {ps qs : List Piece} (hps : Separated ps) (hqs : Separated qs)
    (hends : Ends (textOf qs)) : Separated (ps ++ qs) := by
  induction ps with
  | nil => exact hqs
  | cons p ps ih =>
    obtain ⟨hp, hlater⟩ := hps
    refine ⟨fun c hc ↦ ?_, ih hlater⟩
    have hc : c ∈ (textOf (ps ++ qs)).head? := hc
    rw [textOf_append, List.head?_append] at hc
    -- Pieces may be empty, so what follows the last of them may be the first of the others.
    cases hhead : (textOf ps).head? with
    | none =>
      rw [hhead] at hc
      exact hends c hc p
    | some d =>
      rw [hhead] at hc
      exact hp c (hhead.trans hc)

/-- A closing bracket may stand behind any pieces. -/
theorem separated_closing (d : Delimiter) {ps : List Piece} (h : Separated ps) :
    Separated (ps ++ [mark d.closing]) := by
  refine h.append ⟨nofun, trivial⟩ ?_
  cases d <;> exact ends_cons (by decide) (by decide) []

/-- Pieces between two delimiters divide into their own tokens and the delimiters. -/
theorem tokenize_enclose (d : Delimiter) {ps : List Piece} (h : Separated ps) :
    tokenize (String.ofList (d.enclose (textOf ps))) =
      .ok (d.around (textOf ps) (tokensOf 1 ps) ++
        [⟨.endOfFile, ⟨byteLength (textOf ps) + 2, byteLength (textOf ps) + 2⟩⟩]) := by
  have hone : byteLength d.opening.text = 1 ∧ byteLength d.closing.text = 1 := by
    cases d <;> exact ⟨rfl, rfl⟩
  have hopen : Separated (mark d.opening :: (ps ++ [mark d.closing])) := by
    refine (separated_mark ?_).2 (separated_closing d h)
    cases d <;> nofun
  have htokens := tokenize_textOf hopen
  have hstart : 0 + 1 + byteLength (textOf ps) = byteLength (textOf ps) + 1 := by omega
  simp only [textOf_cons, textOf_append, textOf_nil, List.append_nil, tokensAt, tokensAt_append,
    text, tokens, hone.1, hone.2, hstart] at htokens
  rw [Delimiter.enclose, List.append_assoc, htokens, Delimiter.around, List.append_assoc]
  rfl

end Piece

open Piece (textOf tokensOf Separated)

/-! ### Groups -/

/-- The group of pieces between two delimiters. -/
def Group.ofPieces (d : Delimiter) (ps : List Piece) (hseparated : Separated ps)
    (hbalanced : ∀ p ∈ ps, p.IsBalanced) : Group d where
  content := textOf ps
  tokens := tokensOf 1 ps
  divides := Piece.tokenize_enclose d hseparated
  balanced := Piece.balanced_tokensOf hbalanced 1

/-- A text that may stand between two delimiters. -/
def IsContent (s : List Char) : Prop :=
  ∃ ps : List Piece, textOf ps = s ∧ Separated ps ∧ ∀ p ∈ ps, p.IsBalanced

namespace IsContent

variable {s t : List Char}

/-- **Content in delimiters is a group.** -/
theorem exists_group (d : Delimiter) (h : IsContent s) : ∃ g : Group d, g.text = d.enclose s := by
  obtain ⟨ps, rfl, hseparated, hbalanced⟩ := h
  exact ⟨.ofPieces d ps hseparated hbalanced, rfl⟩

theorem nil : IsContent [] := ⟨[], rfl, trivial, nofun⟩

/-- An identifier is content. -/
theorem word (h : Text.isIdentifier s) : IsContent s := by
  have hword : Text.isIdentifier (String.ofList s).toList := by rwa [String.toList_ofList]
  refine ⟨[.word ⟨String.ofList s, hword⟩], ?_, ⟨nofun, trivial⟩, by simp [Piece.IsBalanced]⟩
  simp [Piece.text]

/-- Contents make one content where no piece goes on into the second. -/
theorem append (hs : IsContent s) (ht : IsContent t) (hends : Piece.Ends t) :
    IsContent (s ++ t) := by
  obtain ⟨ps, rfl, hps, hpsBalanced⟩ := hs
  obtain ⟨qs, rfl, hqs, hqsBalanced⟩ := ht
  refine ⟨ps ++ qs, Piece.textOf_append ps qs, hps.append hqs hends, fun p hp ↦ ?_⟩
  rcases List.mem_append.1 hp with hp | hp
  · exact hpsBalanced p hp
  · exact hqsBalanced p hp

/-! White space, marks and groups do not go on, whatever follows them. -/

/-- A blank may stand before content. -/
theorem blank_append (b : Blank) (h : IsContent s) : IsContent (b.text ++ s) := by
  obtain ⟨ps, rfl, hseparated, hbalanced⟩ := h
  exact ⟨.blank b :: ps, rfl, Piece.separated_blank.2 hseparated,
    List.forall_mem_cons.2 ⟨trivial, hbalanced⟩⟩

/-- A mark that opens and closes nothing may stand before content. -/
theorem mark_append {m : Mark} (hcolon : m ≠ .colon) (hm : (Piece.mark m).IsBalanced)
    (h : IsContent s) : IsContent (m.text ++ s) := by
  obtain ⟨ps, rfl, hseparated, hbalanced⟩ := h
  exact ⟨.mark m :: ps, rfl, (Piece.separated_mark hcolon).2 hseparated,
    List.forall_mem_cons.2 ⟨hm, hbalanced⟩⟩

/-- Content in delimiters may stand before other content. -/
theorem enclose_append (d : Delimiter) (hs : IsContent s) (ht : IsContent t) :
    IsContent (d.enclose s ++ t) := by
  obtain ⟨g, hg⟩ := hs.exists_group d
  obtain ⟨ps, rfl, hseparated, hbalanced⟩ := ht
  refine ⟨.group g :: ps, ?_, Piece.separated_group.2 hseparated,
    List.forall_mem_cons.2 ⟨trivial, hbalanced⟩⟩
  rw [Piece.textOf_cons, Piece.text, hg]

end IsContent

end DoubleDispatch
