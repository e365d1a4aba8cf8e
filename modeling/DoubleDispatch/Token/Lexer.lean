import DoubleDispatch.Text.Identifier
import DoubleDispatch.Token
import DoubleDispatch.Token.Interpolation

/-!
# Dividing a source into tokens

White space, comments and directive lines (those whose first visible character is `#`) belong to
no token, and every literal is one opaque token. A step looks at the first character of what lies
ahead and passes over one lexeme; the length lemmas say that every step goes forward, which is
why the division ends.
-/

namespace DoubleDispatch

/-- A source that does not divide into tokens, and where. The span runs from the start of the
lexeme to where the scan gave up. -/
structure LexError where
  fault : LexicalFault
  span : Span
deriving DecidableEq, Repr, Inhabited

namespace Lexer

/-- One lexeme: the kind of token it is, if it is one, and the place behind it. `lineStart` says
whether only white space stands between the last line break and that place. -/
structure Step where
  kind? : Option TokenKind
  next : Cursor
  lineStart : Bool
deriving DecidableEq, Repr, Inhabited

/-- The place of the next line break. -/
def skipLine (offset : Nat) (s : List Char) : Cursor := Literal.skipWhile (· != '\n') offset s

/-- An identifier: its name and the place behind it. -/
def identifier (offset : Nat) (s : List Char) : Step where
  kind? := some (.identifier (String.ofList (s.takeWhile Text.continuesIdentifier)))
  next := Literal.skipWhile Text.continuesIdentifier offset s
  lineStart := false

/-- Behind a string, from its opening quotes on: three or more open a raw string, and two are an
empty one. -/
def stringFrom (offset : Nat) (s : List Char) : Scan :=
  let quotes := Literal.runLength '"' s
  let behind := s.drop quotes
  if 3 ≤ quotes then Literal.raw quotes 0 (offset + quotes) behind
  else if quotes = 2 then .ok ⟨offset + 2, behind⟩
  else Literal.string (offset + 1) (s.drop 1)

/-- Behind a string that opens with dollar signs. -/
def dollarString (offset : Nat) (s : List Char) : Scan :=
  let dollars := Literal.runLength '$' s
  let start := offset + dollars
  match s.drop dollars with
  | '@' :: '"' :: s => Literal.interpolated ⟨true, 0⟩ [] (start + 2) s
  | '"' :: s =>
    let quotes := Literal.runLength '"' ('"' :: s)
    if 3 ≤ quotes then Literal.raw quotes 0 (start + quotes) (('"' :: s).drop quotes)
    else Literal.interpolated ⟨false, 0⟩ [] (start + 1) s
  | _ => .error ⟨.loneDollar, start⟩

/-- The token of a single character of punctuation. -/
def punctuation : Char → TokenKind
  | '{' => .openBrace
  | '}' => .closeBrace
  | '(' => .openParen
  | ')' => .closeParen
  | '[' => .openBracket
  | ']' => .closeBracket
  | '<' => .less
  | '>' => .greater
  | ',' => .comma
  | ';' => .semicolon
  | ':' => .colon
  | '.' => .dot
  | '=' => .equals
  | '?' => .question
  | c => .punct c

/-- The step over a comment. -/
def passed (next : Cursor) : Step := ⟨none, next, false⟩

/-- The step over a literal. -/
def literal (next : Cursor) : Step := ⟨some .literal, next, false⟩

/-- The step over a lexeme that starts with `c`, which is neither white space nor the `#` of a
directive. -/
def lexeme (offset : Nat) (c : Char) (s : List Char) : Except ScanStop Step :=
  match c, s with
  | '/', '/' :: s => .ok (passed (skipLine (offset + 2) s))
  | '/', '*' :: s => passed <$> Literal.blockComment (offset + 2) s
  | '"', s => literal <$> stringFrom offset ('"' :: s)
  | '@', '"' :: s => literal <$> Literal.verbatim (offset + 2) s
  | '@', '$' :: '"' :: s => literal <$> Literal.interpolated ⟨true, 0⟩ [] (offset + 3) s
  | '$', s => literal <$> dollarString offset ('$' :: s)
  | '\'', s => literal <$> Literal.character (offset + 1) s
  | ':', ':' :: s => .ok ⟨some .doubleColon, ⟨offset + 2, s⟩, false⟩
  | c, s =>
    if c.isDigit then .ok (literal (Literal.number (offset + 1) s))
    else if Text.startsIdentifier c then .ok (identifier offset (c :: s))
    else if c = '@' && s.head?.any Text.startsIdentifier then
      .ok (identifier (offset + 1) s)
    else .ok ⟨some (punctuation c), ⟨offset + c.utf8Size, s⟩, false⟩

/-- The step over what starts with `c`. -/
def step (lineStart : Bool) (offset : Nat) (c : Char) (s : List Char) : Except ScanStop Step :=
  if Text.isBlank c then .ok ⟨none, ⟨offset + c.utf8Size, s⟩, lineStart || c == '\n'⟩
  else if c = '#' && lineStart then .ok ⟨none, skipLine (offset + 1) s, true⟩
  else lexeme offset c s

/-- A string takes its opening quote at least. -/
theorem length_stringFrom_le {offset : Nat} {c : Char} {s : List Char} {next : Cursor}
    (h : stringFrom offset (c :: s) = .ok next) : next.rest.length ≤ s.length := by
  simp only [stringFrom] at h
  split at h
  · have := Literal.length_raw_le h
    simp only [List.length_drop, List.length_cons] at this
    omega
  · split at h
    · cases h
      simp only [List.length_drop, List.length_cons]
      omega
    · exact Literal.length_quoted_le h

theorem length_dollarString_le {offset : Nat} {s : List Char} {next : Cursor}
    (h : dollarString offset ('$' :: s) = .ok next) : next.rest.length ≤ s.length := by
  have hrun : (('$' :: s).drop (Literal.runLength '$' ('$' :: s))).length ≤ s.length := by
    rw [Literal.runLength_cons_self, List.drop_succ_cons, List.length_drop]
    exact Nat.sub_le _ _
  simp only [dollarString] at h
  split at h
  next t heq =>
    rw [heq] at hrun
    exact Nat.le_trans (Literal.length_interpolated_le h)
      (Nat.le_trans (Nat.le_succ_of_le (Nat.le_succ _)) hrun)
  next t heq =>
    rw [heq] at hrun
    split at h
    · have := Literal.length_raw_le h
      simp only [List.length_drop] at this
      omega
    · exact Nat.le_trans (Literal.length_interpolated_le h) (Nat.le_trans (Nat.le_succ _) hrun)
  next => cases h

/-- An identifier takes the character it starts with. -/
theorem length_identifier_le {offset : Nat} {c : Char} {s : List Char}
    (h : Text.startsIdentifier c) :
    (identifier offset (c :: s)).next.rest.length ≤ s.length := by
  simp only [identifier, Literal.skipWhile, Text.continuesIdentifier_of_startsIdentifier h, if_true]
  exact Literal.length_skipWhile_le _ _ _

/-- Where the image of a result succeeds, the result does. -/
theorem eq_ok_of_map_eq_ok {ε α β : Type} {f : α → β} {x : Except ε α} {b : β}
    (h : f <$> x = .ok b) : ∃ a, x = .ok a ∧ f a = b := by
  cases x with
  | error e => cases h
  | ok a => exact ⟨a, rfl, Except.ok.inj h⟩

/-- Every lexeme takes a character at least. -/
theorem length_lexeme_le {offset : Nat} {c : Char} {s : List Char} {st : Step}
    (h : lexeme offset c s = .ok st) : st.next.rest.length ≤ s.length := by
  unfold lexeme at h
  split at h
  next t => cases h; exact Nat.le_succ_of_le (Literal.length_skipWhile_le _ _ t)
  next =>
    obtain ⟨next, hn, rfl⟩ := eq_ok_of_map_eq_ok h
    exact Nat.le_succ_of_le (Literal.length_blockComment_le hn)
  next =>
    obtain ⟨next, hn, rfl⟩ := eq_ok_of_map_eq_ok h
    exact length_stringFrom_le hn
  next =>
    obtain ⟨next, hn, rfl⟩ := eq_ok_of_map_eq_ok h
    exact Nat.le_succ_of_le (Literal.length_verbatim_le hn)
  next =>
    obtain ⟨next, hn, rfl⟩ := eq_ok_of_map_eq_ok h
    exact Nat.le_succ_of_le (Nat.le_succ_of_le (Literal.length_interpolated_le hn))
  next =>
    obtain ⟨next, hn, rfl⟩ := eq_ok_of_map_eq_ok h
    exact length_dollarString_le hn
  next =>
    obtain ⟨next, hn, rfl⟩ := eq_ok_of_map_eq_ok h
    exact Literal.length_quoted_le hn
  next => cases h; exact Nat.le_succ _
  next =>
    split at h
    · cases h; exact Literal.length_number_le _ _
    · split at h
      next hc => cases h; exact length_identifier_le hc
      next =>
        split at h
        · cases h; exact Literal.length_skipWhile_le _ _ _
        · cases h; exact Nat.le_refl _

/-- **Every step of the lexer takes a character at least**, so that it comes to the end. -/
theorem length_step_le {lineStart : Bool} {offset : Nat} {c : Char} {s : List Char} {st : Step}
    (h : step lineStart offset c s = .ok st) : st.next.rest.length ≤ s.length := by
  unfold step at h
  split at h
  · cases h; exact Nat.le_refl _
  · split at h
    · cases h; exact Literal.length_skipWhile_le _ _ _
    · exact length_lexeme_le h

/-- The tokens of what lies ahead, the end of the file included. -/
def tokensFrom (lineStart : Bool) (offset : Nat) : List Char → Except LexError (List Token)
  | [] => .ok [⟨.endOfFile, ⟨offset, offset⟩⟩]
  | c :: s =>
    match h : step lineStart offset c s with
    | .error stop => .error ⟨stop.fault, ⟨offset, stop.offset⟩⟩
    | .ok st =>
      have := length_step_le h
      match st.kind? with
      | none => tokensFrom st.lineStart st.next.offset st.next.rest
      | some kind =>
        (⟨kind, ⟨offset, st.next.offset⟩⟩ :: ·) <$>
          tokensFrom st.lineStart st.next.offset st.next.rest
termination_by s => s.length
decreasing_by all_goals simp only [List.length_cons]; omega

end Lexer

/-- The tokens of a source; the last one is the end of the file. -/
def tokenize (source : String) : Except LexError (List Token) :=
  Lexer.tokensFrom true 0 source.toList

end DoubleDispatch
