import DoubleDispatch.Proofs.Parsing.Passage

/-!
# Streams before pieces

A stream stands before pieces if the tokens ahead are theirs and what is left of the source is their
text (`Stream.Before`). Taking a token takes a piece, and passing over a group passes over the piece
that it is, because the delimiters in it are balanced.
-/

namespace DoubleDispatch

open Text (byteLength)
open Piece (textOf tokensAt)

/-- The kind of the first token of pieces. -/
def Piece.kindOf : List Piece → TokenKind
  | [] => .endOfFile
  | .blank _ :: ps => kindOf ps
  | .word w :: _ => .identifier w.name
  | .mark m :: _ => m.kind
  | @Piece.group d _ :: _ => d.opening.kind

theorem Piece.exists_tokensAt_eq_cons (n : Nat) (ps : List Piece) :
    ∃ t ts, tokensAt n ps = t :: ts ∧ t.kind = kindOf ps := by
  induction ps generalizing n with
  | nil => exact ⟨_, _, rfl, rfl⟩
  | cons p ps ih =>
    cases p with
    | blank b => exact ih _
    | word w => exact ⟨_, _, rfl, rfl⟩
    | mark m => exact ⟨_, _, rfl, rfl⟩
    | group g => exact ⟨_, _, rfl, rfl⟩

open Piece (kindOf)

namespace Stream

/-- A stream stands before pieces. -/
def Before (source : List Char) (ps : List Piece) (s : Stream) : Prop :=
  ∃ passed, source = passed ++ textOf ps ∧ s.ahead = tokensAt (byteLength passed) ps

/-! ### Groups -/

theorem skipGroups_tokensAt {d : Delimiter} (g : Group d) (n prevEnd : Nat) (ts : List Token) :
    skipGroups [] prevEnd (g.tokensAt n ++ ts) = .ok ⟨ts, n + byteLength g.text⟩ := by
  have hbalanced : Balanced ((g.tokens.map (Token.moved n)).map (·.kind)) := by
    rw [List.map_map]
    exact g.balanced
  have hcloses : (Token.moved n ⟨d.opening.kind, ⟨0, 1⟩⟩).kind.closer? = some d.closing.kind :=
    d.closer?_opening
  rw [Group.tokensAt, Delimiter.around, List.map_append, List.map_cons, List.append_assoc,
    List.cons_append, skipGroups, groupsAfter_opener hcloses]
  dsimp only
  rw [List.map_cons, List.cons_append, skipGroups_balanced hbalanced rfl, skipGroups,
    groupsAfter_closer d.closer?_opening rfl]
  dsimp only [Token.moved, Span.moved]
  rw [g.byteLength_text, Nat.add_comm]
  rfl

/-! ### Taking a piece -/

namespace Before

variable {source : List Char} {ps : List Piece} {s : Stream}

/-- Behind a piece the next one starts. -/
theorem behind {p : Piece} {passed : List Char} (hsource : source = passed ++ textOf (p :: ps))
    (hahead : s.ahead = tokensAt (byteLength passed + byteLength p.text) ps) :
    Before source ps s := by
  refine ⟨passed ++ p.text, ?_, ?_⟩
  · rw [hsource, Piece.textOf_cons, List.append_assoc]
  · rw [hahead, Text.byteLength_append]

theorem blank {b : Blank} (h : Before source (.blank b :: ps) s) : Before source ps s := by
  obtain ⟨passed, hsource, hahead⟩ := h
  exact behind hsource hahead

/-- The next token is the first one of the pieces. -/
theorem kind_eq (h : Before source ps s) : s.kind = kindOf ps := by
  obtain ⟨passed, -, hahead⟩ := h
  obtain ⟨t, ts, htokens, hkind⟩ := Piece.exists_tokensAt_eq_cons (byteLength passed) ps
  rw [kind, hahead, htokens]
  exact hkind

theorem word {w : Word} (h : Before source (.word w :: ps) s) : Before source ps s.advance := by
  obtain ⟨passed, hsource, hahead⟩ := h
  obtain ⟨ahead, prevEnd⟩ := s
  obtain rfl : ahead = _ := hahead
  exact behind hsource rfl

theorem mark {m : Mark} (h : Before source (.mark m :: ps) s) : Before source ps s.advance := by
  obtain ⟨passed, hsource, hahead⟩ := h
  obtain ⟨ahead, prevEnd⟩ := s
  obtain rfl : ahead = _ := hahead
  refine behind hsource ?_
  cases m <;> rfl

/-- Behind a word the second token is the first one of the other pieces. -/
theorem secondKind_eq {w : Word} (h : Before source (.word w :: ps) s) :
    s.secondKind = kindOf ps := by
  have hkind : s.kind ≠ .endOfFile := by
    rw [h.kind_eq]
    nofun
  rw [secondKind_eq_kind_advance hkind, h.word.kind_eq]

/-- **A group is passed over as a whole.** -/
theorem group {d : Delimiter} {g : Group d} (h : Before source (.group g :: ps) s) :
    ∃ next, s.skipGroup = .ok next ∧ Before source ps next := by
  obtain ⟨passed, hsource, hahead⟩ := h
  refine ⟨⟨tokensAt (byteLength passed + byteLength g.text) ps,
    byteLength passed + byteLength g.text⟩, ?_, behind hsource rfl⟩
  rw [skipGroup, hahead]
  exact skipGroups_tokensAt g (byteLength passed) _ _

end Before

end Stream

end DoubleDispatch
