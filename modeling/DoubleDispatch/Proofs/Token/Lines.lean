import DoubleDispatch.Proofs.Token.Locality
import Mathlib.Data.List.Basic

/-!
# Texts line by line

No token goes on behind a line break, unless the text before it does not divide into tokens alone.
So two texts with a line break between them have the tokens of the first one, whatever it ends
with, and then those of the second one, as many bytes later as stand before it
(`tokenize_line`). What is still open where the first text ends is closed there: a comment or a
directive by the end of its line, a word, a number or a run of marks because it does not go on with
a line break.
-/

namespace DoubleDispatch

open Text (byteLength)

theorem toList_append_lineBreak (a b : String) :
    (a ++ "\n" ++ b).toList = a.toList ++ '\n' :: b.toList := by
  rw [String.toList_append, String.toList_append, List.append_assoc]
  rfl

/-- Behind a line break a source has the tokens that it has alone. -/
theorem tokenize_append {a b : String} {front : List Token} {eof : Token}
    (ha : tokenize a = .ok (front ++ [eof])) (heof : eof.span.start = byteLength a.toList) :
    tokenize (a ++ "\n" ++ b) =
      (front ++ ·) <$> Lexer.movedTokens (byteLength a.toList + 1) (tokenize b) := by
  have hlexed := Lexer.tokensFrom_append_lineBreak ha (heof.trans (Nat.zero_add _).symm) b.toList
  rw [Nat.zero_add, ← Nat.zero_add (byteLength a.toList + 1), Lexer.tokensFrom_add] at hlexed
  rw [tokenize, toList_append_lineBreak, hlexed]
  rfl

/-- **A text divides at its line breaks.** If the first of two texts divides into tokens, both with
a line break between them have the tokens of the first one without its end, and then all tokens of
the second one, as many bytes later as stand before it. If the second one does not divide, both do
not, with the same fault and that many bytes later. -/
theorem tokenize_line {a : String} {tokens : List Token} (ha : tokenize a = .ok tokens)
    (b : String) :
    let before := a.utf8ByteSize + 1
    ∃ front, tokens = front ++ [⟨.endOfFile, ⟨a.utf8ByteSize, a.utf8ByteSize⟩⟩] ∧
      (∀ later, tokenize b = .ok later →
        tokenize (a ++ "\n" ++ b) = .ok (front ++ later.map (Token.moved before))) ∧
      ∀ stop, tokenize b = .error stop →
        tokenize (a ++ "\n" ++ b) =
          .error ⟨stop.fault, ⟨stop.span.start + before, stop.span.stop + before⟩⟩ := by
  obtain ⟨front, rfl, -⟩ := (tokensFrom_of_tokenize ha).exists_eq_concat
  have hboth := tokenize_append (b := b) ha rfl
  rw [Text.byteLength_toList] at hboth ⊢
  refine ⟨front, rfl, fun later hb ↦ ?_, fun stop hb ↦ ?_⟩
  · rw [hboth, hb]
    rfl
  · rw [hboth, hb]
    rfl

/-- The first text ends in a comment, with a number and a dot before it; behind it a `#` starts a
line, and a string is left open. -/
theorem tokenize_line_commentSample :
    ∃ front, tokenize "1. // \x7b" = .ok (front ++ [⟨.endOfFile, ⟨7, 7⟩⟩]) ∧
      tokenize ("1. // \x7b" ++ "\n" ++ "#x\n5") =
        .ok (front ++ [⟨.literal, ⟨11, 12⟩⟩, ⟨.endOfFile, ⟨12, 12⟩⟩]) ∧
      tokenize ("1. // \x7b" ++ "\n" ++ "é\"y") = .error ⟨.openString, ⟨10, 12⟩⟩ := by
  have hfirst : tokenize "1. // \x7b" =
      .ok [⟨.literal, ⟨0, 1⟩⟩, ⟨.dot, ⟨1, 2⟩⟩, ⟨.endOfFile, ⟨7, 7⟩⟩] := by decide +kernel
  have hsecond : tokenize "#x\n5" = .ok [⟨.literal, ⟨3, 4⟩⟩, ⟨.endOfFile, ⟨4, 4⟩⟩] := by
    decide +kernel
  have hopen : tokenize "é\"y" = .error ⟨.openString, ⟨2, 4⟩⟩ := by decide +kernel
  have hlength : "1. // \x7b".utf8ByteSize = 7 := by decide +kernel
  obtain ⟨front, hfront, hlater, _⟩ := tokenize_line hfirst "#x\n5"
  obtain ⟨_, _, _, hstop⟩ := tokenize_line hfirst "é\"y"
  rw [hlength] at hfront hlater hstop
  exact ⟨front, hfront ▸ hfirst, hlater _ hsecond, hstop _ hopen⟩

end DoubleDispatch
