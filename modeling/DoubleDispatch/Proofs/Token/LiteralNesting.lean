import DoubleDispatch.Proofs.Token.Interpolation
import DoubleDispatch.Proofs.Token.Piece
import Mathlib.Logic.Function.Iterate

/-!
# Literals in holes

A literal may be put into the hole of an interpolated string, and the whole into the hole of a next
one. A hole knows quoted, verbatim and interpolated strings and characters, and passes over them as
a source does, so that every nesting of them is one literal again. It does not know raw strings and
interpolated strings that are also verbatim (`OnlyOutsideHoles`): what these hold is read as if it
stood in the hole itself, and many of them leave the string open (`isLiteral_inHole`).
-/

namespace DoubleDispatch

open Text (byteLength)

/-! ### Texts that are one literal -/

/-- The text divides into one literal and the end of the file. -/
def IsLiteral (s : String) : Prop :=
  tokenize s = .ok [⟨.literal, ⟨0, s.utf8ByteSize⟩⟩, ⟨.endOfFile, ⟨s.utf8ByteSize, s.utf8ByteSize⟩⟩]

instance (s : String) : Decidable (IsLiteral s) := inferInstanceAs (Decidable (_ = _))

/-- An interpolated string whose only hole holds the text. -/
def inHole (s : String) : String := "$\"\x7b" ++ s ++ "\x7d\""

namespace Lexer

theorem tokensFrom_nil (lineStart : Bool) (n : Nat) :
    tokensFrom lineStart n [] = .ok [⟨.endOfFile, ⟨n, n⟩⟩] := by
  rw [tokensFrom]

/-- A text that starts with a literal to its end is one literal. -/
theorem isLiteral_of_lexeme {s : String} {c : Char} {t : List Char} (hs : s.toList = c :: t)
    (hblank : Text.isBlank c = false) (hsign : c ≠ '#')
    (h : lexeme 0 c t = .ok (literal ⟨s.utf8ByteSize, []⟩)) : IsLiteral s := by
  rw [IsLiteral, tokenize, hs, tokensFrom_cons, step_of_visible hblank hsign, h]
  simp only [literal, tokensFrom_nil]
  rfl

/-- A token is a lexeme of its text. -/
theorem lexeme_of_step {lineStart : Bool} {n : Nat} {c : Char} {s : List Char} {st : Step}
    {kind : TokenKind} (h : step lineStart n c s = .ok st) (hkind : st.kind? = some kind) :
    lexeme n c s = .ok st := by
  rw [step] at h
  split at h
  · cases h
    cases hkind
  · split at h
    · cases h
      cases hkind
    · exact h

/-- One literal is all that its text starts with. -/
theorem exists_lexeme_of_isLiteral {s : String} (h : IsLiteral s) :
    ∃ c t st, s.toList = c :: t ∧ lexeme 0 c t = .ok st ∧ st.kind? = some .literal ∧
      st.next = ⟨s.utf8ByteSize, []⟩ := by
  rw [IsLiteral, tokenize] at h
  cases hs : s.toList with
  | nil =>
    rw [hs, tokensFrom_nil] at h
    cases h
  | cons c t =>
    rw [hs, tokensFrom_cons] at h
    cases hstep : step true 0 c t with
    | error stop =>
      rw [hstep] at h
      cases h
    | ok st =>
      have hgoes := ahead_step true 0 c t
      rw [hstep] at hgoes h
      have hoffset := hgoes.reaches.offset_lt (Nat.lt_succ_of_le (length_step_le hstep))
      have htotal := hgoes.reaches.total
      dsimp only at h
      cases hkind : st.kind? with
      | none =>
        -- The first token would start behind what is passed over.
        rw [hkind] at h
        obtain ⟨source, htokens⟩ := exists_tokensFrom h
        exact absurd (htokens.start_le _ List.mem_cons_self) (Nat.not_le_of_lt hoffset)
      | some kind =>
        rw [hkind] at h
        obtain ⟨later, -, heq⟩ := eq_ok_of_map_eq_ok h
        simp only [List.cons.injEq, Token.mk.injEq, Span.mk.injEq, true_and] at heq
        obtain ⟨⟨rfl, hsize⟩, -⟩ := heq
        have hrest : st.next.rest = [] := by
          have hlength : byteLength (c :: t) = s.utf8ByteSize := by
            rw [← hs, Text.byteLength_toList]
          refine Text.eq_nil_of_byteLength_eq_zero ?_
          dsimp only at htotal
          omega
        exact ⟨c, t, st, rfl, lexeme_of_step hstep hkind, hkind, by rw [← hsize, ← hrest]⟩

end Lexer

/-! ### Literals that a hole knows -/

/-- The text opens as a literal that a hole does not know: as a raw string, with dollar signs or
without, or as an interpolated string that is also verbatim. -/
def OnlyOutsideHoles (s : List Char) : Prop :=
  let behindDollars := s.dropWhile (· == '$')
  ['"', '"', '"'] <+: behindDollars ∨ ['@', '$', '"'] <+: s ∨
    s.head? = some '$' ∧ ['@', '"'] <+: behindDollars

instance (s : List Char) : Decidable (OnlyOutsideHoles s) := inferInstanceAs (Decidable (_ ∨ _))

namespace Literal

variable {n m : Nat} {s : List Char}

/-- A text is its leading run of a character and what is behind the run. -/
theorem replicate_runLength_append (c : Char) (s : List Char) :
    List.replicate (runLength c s) c ++ s.drop (runLength c s) = s := by
  induction s with
  | nil => rfl
  | cons d s ih =>
    by_cases hd : d = c
    · subst hd
      rw [runLength_cons_self, List.replicate_succ, List.cons_append, List.drop_succ_cons, ih]
    · rw [runLength_cons_of_ne hd]
      rfl

/-- What is behind the leading run of a character is what `List.dropWhile` leaves. -/
theorem drop_runLength (c : Char) (s : List Char) :
    s.drop (runLength c s) = s.dropWhile (· == c) := by
  have hs : s.takeWhile (· == c) ++ s.dropWhile (· == c) = s := List.takeWhile_append_dropWhile
  calc s.drop (runLength c s)
      = (s.takeWhile (· == c) ++ s.dropWhile (· == c)).drop (s.takeWhile (· == c)).length := by
        rw [hs, runLength]
    _ = s.dropWhile (· == c) := List.drop_left

/-- Three quotes or more are seen as three. -/
theorem prefix_of_three_le_runLength (h : 3 ≤ runLength '"' s) : ['"', '"', '"'] <+: s := by
  obtain ⟨more, hmore⟩ := Nat.exists_eq_add_of_le' h
  have hs := replicate_runLength_append '"' s
  rw [hmore] at hs
  exact ⟨_, hs⟩

/-- A number is passed over by a hole as a whole. -/
theorem isStretch_of_number (h : number n s = ⟨m, []⟩) : IsStretch .hole s := by
  induction s generalizing n with
  | nil => exact .holeEnd
  | cons c s ih =>
    rw [number] at h
    split at h
    · next hc =>
      have hsigns : ['{', '}', '"', '\'', '@', '$'].all
          (fun d ↦ !(d.isAlphanum || d == '_' || d == '.')) := by decide
      have hplain : c ∉ ['{', '}', '"', '\'', '@', '$'] := by
        intro hmem
        have hnone := List.all_eq_true.1 hsigns c hmem
        simp only [Bool.not_eq_true', Bool.or_eq_false_iff] at hnone
        simp [hnone] at hc
      simp only [List.mem_cons, List.not_mem_nil, or_false, not_or] at hplain
      refine .other (by simp [hplain]) (fun hsign ↦ ?_) (ih h)
      exact absurd hsign (by simp [hplain])
    · cases h

/-- A string is passed over by a hole as a whole, unless its form is one that holes do not know. -/
theorem isStretch_of_stringFrom (h : Lexer.stringFrom n ('"' :: s) = .ok ⟨m, []⟩)
    (hform : ¬OnlyOutsideHoles ('"' :: s)) : IsStretch .hole ('"' :: s) := by
  simp only [Lexer.stringFrom] at h
  split at h
  · next hraw =>
    exact absurd (.inl (prefix_of_three_le_runLength hraw)) hform
  · split at h
    · next htwo =>
      have hs := replicate_runLength_append '"' ('"' :: s)
      rw [htwo] at hs h
      have hrest : ('"' :: s).drop 2 = [] := congrArg Cursor.rest (Except.ok.inj h)
      rw [hrest] at hs
      rw [← hs]
      exact @IsStretch.quoted '"' ['"'] [] (.inl rfl) .close .holeEnd
    · obtain ⟨body, hbody, hs⟩ := exists_of_quoted h
      rw [List.drop_one, List.tail_cons] at hs
      rw [hs]
      exact .quoted (.inl rfl) hbody .holeEnd

theorem isStretch_replicate_append (dollars : Nat) (h : IsStretch .hole ('$' :: s)) :
    IsStretch .hole (List.replicate dollars '$' ++ '$' :: s) := by
  induction dollars with
  | zero => exact h
  | succ dollars ih =>
    rw [List.replicate_succ, List.cons_append]
    refine .other (by decide) (fun _ ↦ ?_) ih
    cases dollars <;> simp [List.replicate_succ]

/-- An interpolated string is passed over by a hole as a whole, unless its form is one that holes do
not know. -/
theorem isStretch_of_dollarString (h : Lexer.dollarString n ('$' :: s) = .ok ⟨m, []⟩)
    (hform : ¬OnlyOutsideHoles ('$' :: s)) : IsStretch .hole ('$' :: s) := by
  obtain ⟨dollars, hdollars⟩ : ∃ dollars, runLength '$' ('$' :: s) = dollars + 1 :=
    ⟨_, runLength_cons_self⟩
  simp only [Lexer.dollarString] at h
  split at h
  · next u hu =>
    rw [drop_runLength] at hu
    exact absurd (.inr (.inr ⟨rfl, u, hu.symm⟩)) hform
  · next u hu =>
    split at h
    · next hraw =>
      rw [← hu, drop_runLength] at hraw
      exact absurd (.inl (prefix_of_three_le_runLength hraw)) hform
    · obtain ⟨text, htext, -, rfl, -⟩ := interpolated_eq_ok_iff.1 h
      rw [← replicate_runLength_append '$' ('$' :: s), hu, hdollars, List.replicate_succ',
        List.append_assoc]
      exact isStretch_replicate_append dollars (.nested htext .holeEnd)
  · cases h

end Literal

namespace Lexer

theorem punctuation_ne_literal (c : Char) : punctuation c ≠ .literal := by
  unfold punctuation
  split <;> nofun

/-- A hole knows the literals of a source, but for the forms above. -/
theorem isStretch_of_lexeme {n m : Nat} {c : Char} {s : List Char} {st : Step}
    (h : lexeme n c s = .ok st) (hkind : st.kind? = some .literal) (hnext : st.next = ⟨m, []⟩)
    (hform : ¬OnlyOutsideHoles (c :: s)) : IsStretch .hole (c :: s) := by
  have hscan {scan : Scan} (h : literal <$> scan = .ok st) : scan = .ok ⟨m, []⟩ := by
    obtain ⟨next, hok, rfl⟩ := eq_ok_of_map_eq_ok h
    rw [hok, ← hnext]
    rfl
  unfold lexeme at h
  split at h
  next => cases h; cases hkind
  next =>
    obtain ⟨next, -, rfl⟩ := eq_ok_of_map_eq_ok h
    cases hkind
  next => exact Literal.isStretch_of_stringFrom (hscan h) hform
  next =>
    obtain ⟨body, hbody, rfl, -⟩ := Literal.exists_of_verbatim (hscan h)
    exact .verbatim hbody nofun .holeEnd
  next u => exact absurd (.inr (.inl ⟨u, rfl⟩)) hform
  next => exact Literal.isStretch_of_dollarString (hscan h) hform
  next =>
    obtain ⟨body, hbody, rfl⟩ := Literal.exists_of_quoted (hscan h)
    exact .quoted (.inr rfl) hbody .holeEnd
  next => cases h; cases hkind
  next =>
    split at h
    next hdigit =>
      cases h
      have hnumber : Literal.number n (c :: s) = ⟨m, []⟩ := by
        rw [Literal.number, if_pos (by simp [Char.isAlphanum, hdigit])]
        exact hnext
      exact Literal.isStretch_of_number hnumber
    next =>
      split at h
      next => cases h; cases hkind
      next =>
        split at h
        · cases h; cases hkind
        · cases h
          exact absurd (Option.some.inj hkind) (punctuation_ne_literal _)

theorem lexeme_openBrace (n : Nat) (s : List Char) :
    lexeme n '{' s = .ok ⟨some .openBrace, ⟨n + 1, s⟩, false⟩ := rfl

/-- An interpolated string that begins with a hole is read as one from the hole on. -/
theorem dollarString_hole (n : Nat) (s : List Char) :
    dollarString n ('$' :: '"' :: '{' :: s) =
      Literal.interpolated ⟨false, 0⟩ [] (n + 2) ('{' :: s) := by
  simp [dollarString, Literal.runLength]

end Lexer

theorem toList_inHole (s : String) :
    (inHole s).toList = '$' :: '"' :: '{' :: (s.toList ++ ['}', '"']) := by
  simp [inHole]

/-- **What may stand in a hole.** With a text in its hole a string is one literal if the text with
the braces of the hole is one hole, or holes with text between them. -/
theorem isLiteral_inHole_iff (s : String) :
    IsLiteral (inHole s) ↔ IsStretch (.text false) ('{' :: (s.toList ++ ['}'])) := by
  have hlist : '{' :: (s.toList ++ ['}', '"']) = '{' :: (s.toList ++ ['}']) ++ ['"'] := by simp
  have hsize : (inHole s).utf8ByteSize = 2 + byteLength ('{' :: (s.toList ++ ['}'])) + 1 := by
    rw [← Text.byteLength_toList, toList_inHole, hlist]
    simp only [Text.byteLength_cons, Text.byteLength_append, ← Nat.add_assoc]
    rfl
  have hlexeme : Lexer.lexeme 0 '$' ('"' :: '{' :: (s.toList ++ ['}', '"'])) = Lexer.literal <$>
      Literal.interpolated ⟨false, 0⟩ [] 2 ('{' :: (s.toList ++ ['}', '"'])) :=
    congrArg (Lexer.literal <$> ·) (Lexer.dollarString_hole 0 _)
  constructor
  · intro h
    obtain ⟨c, t, st, hs, hst, -, hnext⟩ := Lexer.exists_lexeme_of_isLiteral h
    rw [toList_inHole] at hs
    obtain ⟨rfl, rfl⟩ := List.cons.inj hs
    rw [hlexeme] at hst
    obtain ⟨next, hscan, rfl⟩ := Lexer.eq_ok_of_map_eq_ok hst
    obtain rfl : next = _ := hnext
    obtain ⟨text, htext, -, heq, -⟩ := Literal.interpolated_eq_ok_iff.1 hscan
    rw [hlist] at heq
    rwa [List.append_cancel_right heq]
  · intro h
    refine Lexer.isLiteral_of_lexeme (toList_inHole s) (by decide) (by decide) ?_
    have hscan := Literal.interpolated_eq_ok_iff.2
      ⟨_, h, fun hverbatim ↦ Bool.noConfusion hverbatim, hlist, hsize⟩
    rw [hlexeme, hscan]
    rfl

/-- A literal that a hole knows may stand in one. -/
theorem isLiteral_inHole_of_form {s : String} (h : IsLiteral s)
    (hform : ¬OnlyOutsideHoles s.toList) : IsLiteral (inHole s) := by
  obtain ⟨c, t, st, hs, hst, hkind, hnext⟩ := Lexer.exists_lexeme_of_isLiteral h
  have hhole := Lexer.isStretch_of_lexeme hst hkind hnext (hs ▸ hform)
  have hbrace : (c :: t).head? ≠ some '{' := by
    intro heq
    obtain rfl : c = '{' := Option.some.inj heq
    rw [Lexer.lexeme_openBrace] at hst
    cases hst
    cases hkind
  rw [isLiteral_inHole_iff, hs]
  exact .insert hhole hbrace .textEnd

/-- A text set into a hole is of a form that holes know. -/
theorem not_onlyOutsideHoles_inHole (s : String) : ¬OnlyOutsideHoles (inHole s).toList := by
  rw [toList_inHole]
  simp [OnlyOutsideHoles]

/-- A literal of a form that holes know stays one at any depth of nesting. -/
theorem isLiteral_iterate_inHole {s : String} (h : IsLiteral s) (hform : ¬OnlyOutsideHoles s.toList)
    (depth : Nat) : IsLiteral (inHole^[depth] s) := by
  induction depth generalizing s with
  | zero => exact h
  | succ depth ih =>
    exact ih (isLiteral_inHole_of_form h hform) (not_onlyOutsideHoles_inHole s)

/-- **Literals nest in holes.** A literal that opens neither as a raw string nor as one that is both
interpolated and verbatim is one literal again in a hole, and in a hole of that one, to any depth.
Whether any other one is, its text tells: with the braces of the hole it must be text of a string,
and then it is one literal to any depth. -/
theorem isLiteral_inHole {s : String} (h : IsLiteral s) :
    (¬OnlyOutsideHoles s.toList → ∀ depth, IsLiteral (inHole^[depth] s)) ∧
    (IsLiteral (inHole s) ↔ IsStretch (.text false) ('{' :: (s.toList ++ ['}']))) ∧
    (IsLiteral (inHole s) → ∀ depth, IsLiteral (inHole^[depth] s)) := by
  refine ⟨isLiteral_iterate_inHole h, isLiteral_inHole_iff s, fun hnested depth ↦ ?_⟩
  cases depth with
  | zero => exact h
  | succ depth => exact isLiteral_iterate_inHole hnested (not_onlyOutsideHoles_inHole s) depth

/-- The backslash of a verbatim string is text, and so is the brace behind it. -/
theorem isLiteral_inHole_verbatimSample :
    let sample := "@\"\\\x7b\""
    IsLiteral sample ∧ ¬OnlyOutsideHoles sample.toList ∧ IsLiteral (inHole^[2] sample) := by
  intro sample
  have h : IsLiteral sample := by decide +kernel
  have hform : ¬OnlyOutsideHoles sample.toList := by decide +kernel
  exact ⟨h, hform, (isLiteral_inHole h).1 hform 2⟩

/-- A quote in a raw string opens a string in the hole, and a backslash in a verbatim one takes the
quote behind it along, so that the whole string stays open. -/
theorem not_isLiteral_inHole_rawSample :
    let raw := "\"\"\"a\"b\"\"\""
    let verbatim := "@$\"\\\""
    IsLiteral raw ∧ tokenize (inHole raw) = .error ⟨.openInterpolation, ⟨0, 14⟩⟩ ∧
      IsLiteral verbatim ∧
      tokenize (inHole verbatim) = .error ⟨.openInterpolation, ⟨0, 10⟩⟩ := by
  decide +kernel

end DoubleDispatch
