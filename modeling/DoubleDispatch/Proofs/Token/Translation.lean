import DoubleDispatch.Proofs.Token.Progress

/-!
# Texts that start elsewhere

A text divides in the same way wherever it starts: every place, and every span, moves along with
it.
-/

namespace DoubleDispatch

/-- The same place in a text that starts `k` bytes later. -/
def Cursor.moved (k : Nat) (a : Cursor) : Cursor := { a with offset := a.offset + k }

def ScanStop.moved (k : Nat) (stop : ScanStop) : ScanStop := { stop with offset := stop.offset + k }

/-- The same scan in a text that starts `k` bytes later. -/
def Scan.moved (k : Nat) : Scan → Scan
  | .ok next => .ok (next.moved k)
  | .error stop => .error (stop.moved k)

def Span.moved (k : Nat) (span : Span) : Span := ⟨span.start + k, span.stop + k⟩

/-- The same token in a text that starts `k` bytes later. -/
def Token.moved (k : Nat) (token : Token) : Token := { token with span := token.span.moved k }

/-- The same error in a text that starts `k` bytes later. -/
def LexError.moved (k : Nat) (stop : LexError) : LexError := { stop with span := stop.span.moved k }

/-! ### Scanners -/

namespace Literal

variable (k n : Nat) (s : List Char)

/-- How far characters of a kind go on does not depend on where they stand. -/
theorem skipWhile_add (p : Char → Bool) : skipWhile p (n + k) s = (skipWhile p n s).moved k := by
  rw [skipWhile_eq, skipWhile_eq, Nat.add_right_comm]
  rfl

/-- A number is the same wherever it stands. -/
theorem number_add : number (n + k) s = (number n s).moved k := by
  induction s generalizing n with
  | nil => rfl
  | cons c s ih =>
    rw [number, number]
    split
    · rw [Nat.add_right_comm, ih]
    · rfl

/-- A comment closes at the same place from its start, or is unclosed just so. -/
theorem blockComment_add : blockComment (n + k) s = Scan.moved k (blockComment n s) := by
  fun_induction blockComment n s with
  | case1 n => rfl
  | case2 n s =>
    rw [blockComment, Nat.add_right_comm]
    rfl
  | case3 n c s hc ih => rw [blockComment.eq_3 _ _ _ hc, Nat.add_right_comm, ih]

/-- A literal in quotes closes at the same place from its start, or fails just so. -/
theorem quoted_add (quote : Char) (fault : LexicalFault) :
    quoted quote fault (n + k) s = Scan.moved k (quoted quote fault n s) := by
  fun_induction quoted quote fault n s with
  | case1 n => rfl
  | case2 n => rw [quoted, Nat.add_right_comm]; rfl
  | case3 n c s ih => rw [quoted, Nat.add_right_comm n k 1, Nat.add_right_comm (n + 1) k, ih]
  | case4 n s hlast hpair =>
    rw [quoted_cons (ne_backslash hlast hpair), if_pos rfl, Nat.add_right_comm]
    rfl
  | case5 n s hlast hpair hquote =>
    rw [quoted_cons (ne_backslash hlast hpair), if_neg hquote, if_pos rfl, Nat.add_right_comm]
    rfl
  | case6 n c s hlast hpair hquote hline ih =>
    rw [quoted_cons (ne_backslash hlast hpair), if_neg hquote, if_neg hline, Nat.add_right_comm, ih]

/-- A verbatim string closes at the same place from its start, or fails just so. -/
theorem verbatim_add : verbatim (n + k) s = Scan.moved k (verbatim n s) := by
  fun_induction verbatim n s with
  | case1 n => rfl
  | case2 n s ih => rw [verbatim, Nat.add_right_comm, ih]
  | case3 n s hs =>
    rw [verbatim.eq_3 _ _ hs, Nat.add_right_comm]
    rfl
  | case4 n c s _ hc ih => rw [verbatim_cons hc, Nat.add_right_comm, ih]

/-- A raw string closes at the same place from its start, or fails just so. -/
theorem raw_add (quotes run : Nat) :
    raw quotes run (n + k) s = Scan.moved k (raw quotes run n s) := by
  fun_induction raw quotes run n s with
  | case1 run n hrun => exact if_pos hrun
  | case2 run n hrun => exact if_neg hrun
  | case3 run n s ih => rw [raw, if_pos rfl, Nat.add_right_comm, ih]
  | case4 run n c s hc hrun =>
    rw [raw, if_neg hc, if_pos hrun]
    rfl
  | case5 run n c s hc hrun ih => rw [raw, if_neg hc, if_neg hrun, Nat.add_right_comm, ih]

/-- A literal in a hole is the same wherever the hole stands. -/
theorem holeLiteral?_add (c : Char) :
    holeLiteral? (n + k) c s = (holeLiteral? n c s).map (Scan.moved k) := by
  unfold holeLiteral?
  split
  · rw [string, string, Nat.add_right_comm, quoted_add]
    rfl
  · rw [character, character, Nat.add_right_comm, quoted_add]
    rfl
  · rw [Nat.add_right_comm, verbatim_add]
    rfl
  · rfl

/-- An interpolated string closes at the same place from its start, by induction on the text, with
the strings around it kept. -/
theorem interpolated_add (inner : Interpolation) (outer : List Interpolation) :
    interpolated inner outer (n + k) s = Scan.moved k (interpolated inner outer n s) := by
  fun_induction interpolated inner outer n s with
  | case1 inner outer n =>
    rw [interpolated]
    rfl
  | case2 inner outer n c s hdepth hpair ih =>
    obtain _ | ⟨d, s⟩ := s
    · cases hpair
    rw [interpolated_pair hdepth hpair, Nat.add_right_comm n, Nat.add_right_comm _ k]
    exact ih
  | case3 inner n s hdepth hpair =>
    rw [interpolated_quote hdepth hpair, Nat.add_right_comm]
    rfl
  | case4 inner n s hdepth next outer hpair ih =>
    rw [interpolated_quote hdepth hpair, Nat.add_right_comm]
    exact ih
  | case5 inner outer n s hdepth hpair hquote ih =>
    rw [interpolated_insert hdepth hpair, Nat.add_right_comm, ih]
  | case6 inner outer n c s hdepth hpair hquote hopen hline =>
    rw [interpolated_text hdepth hpair hquote hopen, if_pos hline, Nat.add_right_comm]
    rfl
  | case7 inner outer n c s hdepth hpair hquote hopen hline ih =>
    rw [interpolated_text hdepth hpair hquote hopen, if_neg hline, Nat.add_right_comm, ih]
  | case8 inner outer n hdepth s ih =>
    rw [interpolated_open hdepth, Nat.add_right_comm, ih]
  | case9 inner outer n hdepth s ih =>
    rw [interpolated_close hdepth, Nat.add_right_comm, ih]
  | case10 inner outer n hdepth s ih =>
    rw [interpolated_nested hdepth, Nat.add_right_comm, ih]
  | case11 inner outer n hdepth c s hopen hclose hdollar next hliteral hlt ih =>
    rw [interpolated_hole hdepth hopen hclose hdollar, holeLiteral?_add, hliteral]
    exact ih
  | case12 inner outer n hdepth c s hopen hclose hdollar stop hliteral =>
    rw [interpolated_hole hdepth hopen hclose hdollar, holeLiteral?_add, hliteral]
    rfl
  | case13 inner outer n hdepth c s hopen hclose hdollar hliteral ih =>
    rw [interpolated_hole hdepth hopen hclose hdollar, holeLiteral?_add, hliteral, ← ih,
      Nat.add_right_comm]
    rfl

end Literal

/-! ### Lexemes -/

namespace Lexer

variable (k n : Nat) (s : List Char)

/-- The same step in a text that starts `k` bytes later. -/
def Step.moved (k : Nat) (st : Step) : Step := { st with next := st.next.moved k }

/-- The same outcome of a step in a text that starts `k` bytes later. -/
def movedStep (k : Nat) : Except ScanStop Step → Except ScanStop Step
  | .ok st => .ok (st.moved k)
  | .error stop => .error (stop.moved k)

theorem identifier_add : identifier (n + k) s = (identifier n s).moved k := by
  rw [identifier, Literal.skipWhile_add]
  rfl

/-- A string of any form is the same wherever it stands. -/
theorem stringFrom_add : stringFrom (n + k) s = Scan.moved k (stringFrom n s) := by
  simp only [stringFrom]
  split
  · rw [Nat.add_right_comm, Literal.raw_add]
  · split
    · rw [Nat.add_right_comm]
      rfl
    · rw [Nat.add_right_comm]
      exact Literal.quoted_add _ _ _ _ _

theorem dollarString_add : dollarString (n + k) s = Scan.moved k (dollarString n s) := by
  simp only [dollarString, Nat.add_right_comm _ k]
  split
  · exact Literal.interpolated_add _ _ _ _ _
  · split
    · exact Literal.raw_add _ _ _ _ _
    · exact Literal.interpolated_add _ _ _ _ _
  · rfl

theorem map_passed (scan : Scan) :
    passed <$> Scan.moved k scan = movedStep k (passed <$> scan) := by
  cases scan <;> rfl

/-- A scan that becomes a literal may be moved before or after that. -/
theorem map_literal (scan : Scan) :
    literal <$> Scan.moved k scan = movedStep k (literal <$> scan) := by
  cases scan <;> rfl

/-- **A lexeme is the same wherever it stands**, and so is its failure. -/
theorem lexeme_add (c : Char) : lexeme (n + k) c s = movedStep k (lexeme n c s) := by
  unfold lexeme
  split
  · rw [Nat.add_right_comm, skipLine, Literal.skipWhile_add]
    rfl
  · rw [Nat.add_right_comm, Literal.blockComment_add, map_passed]
  · rw [stringFrom_add, map_literal]
  · rw [Nat.add_right_comm, Literal.verbatim_add, map_literal]
  · rw [Nat.add_right_comm, Literal.interpolated_add, map_literal]
  · rw [dollarString_add, map_literal]
  · rw [Literal.character, Nat.add_right_comm, Literal.quoted_add, map_literal]
    rfl
  · rw [Nat.add_right_comm]
    rfl
  · split
    · rw [Nat.add_right_comm, Literal.number_add]
      rfl
    · split
      · rw [identifier_add]
        rfl
      · split
        · rw [Nat.add_right_comm, identifier_add]
          rfl
        · rw [Nat.add_right_comm]
          rfl

/-- **A step of the lexer is the same wherever it is made**, as long as it may or may not start a
line. -/
theorem step_add (lineStart : Bool) (c : Char) :
    step lineStart (n + k) c s = movedStep k (step lineStart n c s) := by
  rw [step, step]
  split
  · rw [Nat.add_right_comm]
    rfl
  · split
    · rw [Nat.add_right_comm, skipLine, Literal.skipWhile_add]
      rfl
    · exact lexeme_add k n s c

/-! ### Tokens -/

theorem tokensFrom_cons (lineStart : Bool) (n : Nat) (c : Char) (s : List Char) :
    tokensFrom lineStart n (c :: s) =
      match step lineStart n c s with
      | .error stop => .error ⟨stop.fault, ⟨n, stop.offset⟩⟩
      | .ok st =>
        match st.kind? with
        | none => tokensFrom st.lineStart st.next.offset st.next.rest
        | some kind =>
          (⟨kind, ⟨n, st.next.offset⟩⟩ :: ·) <$>
            tokensFrom st.lineStart st.next.offset st.next.rest := by
  rw [tokensFrom.eq_def]
  dsimp only
  split
  next h => simp only [h]
  next st h => cases hkind : st.kind? <;> simp only [h, hkind]

/-- The same outcome of a division in a text that starts `k` bytes later. -/
def movedTokens (k : Nat) : Except LexError (List Token) → Except LexError (List Token)
  | .ok tokens => .ok (tokens.map (Token.moved k))
  | .error stop => .error (stop.moved k)

/-- Tokens in front are moved with those behind them. -/
theorem movedTokens_append (front : List Token) (tokens : Except LexError (List Token)) :
    movedTokens k ((front ++ ·) <$> tokens) =
      (front.map (Token.moved k) ++ ·) <$> movedTokens k tokens := by
  cases tokens with
  | error stop => rfl
  | ok tokens => exact congrArg Except.ok List.map_append

/-- **A text divides in the same way wherever it starts.** -/
theorem tokensFrom_add (lineStart : Bool) :
    tokensFrom lineStart (n + k) s = movedTokens k (tokensFrom lineStart n s) := by
  fun_induction tokensFrom lineStart n s with
  | case1 lineStart n =>
    rw [tokensFrom]
    rfl
  | case2 lineStart n c s stop hstep =>
    rw [tokensFrom_cons, step_add, hstep]
    rfl
  | case3 lineStart n c s st hstep hle hkind ih =>
    rw [tokensFrom_cons, step_add, hstep]
    simp only [movedStep, Step.moved, hkind]
    exact ih
  | case4 lineStart n c s st hstep hle kind hkind ih =>
    rw [tokensFrom_cons, step_add, hstep]
    simp only [movedStep, Step.moved, hkind, Cursor.moved]
    rw [ih]
    cases tokensFrom st.lineStart st.next.offset st.next.rest <;> rfl

end Lexer

end DoubleDispatch
