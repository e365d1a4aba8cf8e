/-!
# Literals and comments

The forms of text that a lexer passes over as a whole: quoted strings and characters, verbatim,
raw and interpolated strings, numbers and comments. Each scanner starts behind the opening
characters and either reaches the place behind the closing ones or says where it gave up.
-/

namespace DoubleDispatch

/-- Why a text does not divide into tokens. -/
inductive LexicalFault where
  | openComment
  | openString
  | openVerbatim
  | openRaw
  | openInterpolation
  | openCharacter
  | loneDollar
deriving DecidableEq, Repr, Inhabited

/-- The wording of a lexical fault. -/
def LexicalFault.message : LexicalFault → String
  | openComment => "unterminated block comment"
  | openString => "unterminated string literal"
  | openVerbatim => "unterminated verbatim string literal"
  | openRaw => "unterminated raw string literal"
  | openInterpolation => "unterminated interpolated string literal"
  | openCharacter => "unterminated character literal"
  | loneDollar => "expected string literal after `$`"

/-- A place in a text: the offset in bytes and what lies ahead. -/
structure Cursor where
  offset : Nat
  rest : List Char
deriving DecidableEq, Repr, Inhabited

/-- A fault and the offset at which the scan gave up. -/
structure ScanStop where
  fault : LexicalFault
  offset : Nat
deriving DecidableEq, Repr, Inhabited

/-- What a scanner finds. -/
abbrev Scan := Except ScanStop Cursor

namespace Literal

/-- The place behind the longest run of characters with a property. -/
def skipWhile (p : Char → Bool) (offset : Nat) : List Char → Cursor
  | [] => ⟨offset, []⟩
  | c :: s => if p c then skipWhile p (offset + c.utf8Size) s else ⟨offset, c :: s⟩

/-- The length of the run of one character at the start of a text. -/
def runLength (c : Char) (s : List Char) : Nat := (s.takeWhile (· == c)).length

/-- Behind a number: digits, letters, underscores, and dots that a digit follows. -/
def number (offset : Nat) : List Char → Cursor
  | [] => ⟨offset, []⟩
  | c :: s =>
    if c.isAlphanum || c == '_' || (c == '.' && s.head?.any Char.isDigit) then
      number (offset + 1) s
    else ⟨offset, c :: s⟩

/-- Behind the `*/` that ends a block comment. -/
def blockComment (offset : Nat) : List Char → Scan
  | [] => .error ⟨.openComment, offset⟩
  | '*' :: '/' :: s => .ok ⟨offset + 2, s⟩
  | c :: s => blockComment (offset + c.utf8Size) s

/-- Behind the first `quote` that is not the second half of a backslash pair, on the same line. -/
def quoted (quote : Char) (fault : LexicalFault) (offset : Nat) : List Char → Scan
  | [] => .error ⟨fault, offset⟩
  | ['\\'] => .error ⟨fault, offset + 1⟩
  | '\\' :: c :: s => quoted quote fault (offset + 1 + c.utf8Size) s
  | c :: s =>
    if c = quote then .ok ⟨offset + c.utf8Size, s⟩
    else if c = '\n' then .error ⟨fault, offset + 1⟩
    else quoted quote fault (offset + c.utf8Size) s

/-- Behind the closing quote of a string between double quotes. -/
def string (offset : Nat) (s : List Char) : Scan := quoted '"' .openString offset s

/-- Behind the closing quote of a character. -/
def character (offset : Nat) (s : List Char) : Scan := quoted '\'' .openCharacter offset s

/-- Behind the first quote of a verbatim string that is not half of a doubled pair. -/
def verbatim (offset : Nat) : List Char → Scan
  | [] => .error ⟨.openVerbatim, offset⟩
  | '"' :: '"' :: s => verbatim (offset + 2) s
  | '"' :: s => .ok ⟨offset + 1, s⟩
  | c :: s => verbatim (offset + c.utf8Size) s

/-- Behind the first run of at least `quotes` quotes, `run` of them already passed. -/
def raw (quotes run offset : Nat) : List Char → Scan
  | [] => if quotes ≤ run then .ok ⟨offset, []⟩ else .error ⟨.openRaw, offset⟩
  | c :: s =>
    if c = '"' then raw quotes (run + 1) (offset + 1) s
    else if quotes ≤ run then .ok ⟨offset, c :: s⟩
    else raw quotes 0 (offset + c.utf8Size) s

/-! ### Runs of one character -/

section

variable {c d : Char} {s : List Char}

/-- One more of the character makes the run longer by one. -/
theorem runLength_cons_self : runLength c (c :: s) = runLength c s + 1 := by
  simp [runLength]

theorem runLength_cons_of_ne (hd : d ≠ c) : runLength c (d :: s) = 0 := by
  simp [runLength, hd]

/-- There is no run where another character stands first. -/
theorem runLength_eq_zero (h : s.head? ≠ some c) : runLength c s = 0 := by
  cases s with
  | nil => rfl
  | cons d s => exact runLength_cons_of_ne fun hd ↦ h (congrArg some hd)

end

/-! ### One step of a scan -/

section

variable {quote : Char} {fault : LexicalFault} {offset : Nat} {c : Char} {s : List Char}

/-- A character that no backslash pair starts with is no backslash. -/
theorem ne_backslash (hlast : c = '\\' → s = [] → False)
    (hpair : ∀ d s', c = '\\' → s = d :: s' → False) : c ≠ '\\' := by
  intro hc
  cases s with
  | nil => exact hlast hc rfl
  | cons d s => exact hpair d s hc rfl

/-- A character that escapes nothing closes the literal, breaks it or is passed. -/
theorem quoted_cons (hescape : c ≠ '\\') :
    quoted quote fault offset (c :: s) =
      if c = quote then .ok ⟨offset + c.utf8Size, s⟩
      else if c = '\n' then .error ⟨fault, offset + 1⟩
      else quoted quote fault (offset + c.utf8Size) s :=
  quoted.eq_4 _ _ _ _ _ (fun h _ ↦ hescape h) fun _ _ h _ ↦ hescape h

/-- A quote that is not doubled closes a verbatim string. -/
theorem verbatim_quote (hsingle : s.head? ≠ some '"') :
    verbatim offset ('"' :: s) = .ok ⟨offset + 1, s⟩ :=
  verbatim.eq_3 _ _ fun _ hs ↦ hsingle (hs ▸ rfl)

/-- Any other character of a verbatim string is passed. -/
theorem verbatim_cons (hquote : c ≠ '"') :
    verbatim offset (c :: s) = verbatim (offset + c.utf8Size) s :=
  verbatim.eq_4 _ _ _ (fun _ hc ↦ absurd hc hquote) hquote

end

/-! ### What is left -/

theorem length_skipWhile_le (p : Char → Bool) (offset : Nat) (s : List Char) :
    (skipWhile p offset s).rest.length ≤ s.length := by
  induction s generalizing offset with
  | nil => simp [skipWhile]
  | cons c s ih =>
    unfold skipWhile
    split
    · exact Nat.le_succ_of_le (ih _)
    · simp

theorem length_number_le (offset : Nat) (s : List Char) :
    (number offset s).rest.length ≤ s.length := by
  induction s generalizing offset with
  | nil => simp [number]
  | cons c s ih =>
    unfold number
    split
    · exact Nat.le_succ_of_le (ih _)
    · simp

/-- Behind a comment no more is left than before its content. -/
theorem length_blockComment_le {offset : Nat} {s : List Char} {next : Cursor}
    (h : blockComment offset s = .ok next) : next.rest.length ≤ s.length := by
  fun_induction blockComment offset s with
  | case1 => cases h
  | case2 => cases h; simp only [List.length_cons]; omega
  | case3 _ _ _ _ ih => exact Nat.le_succ_of_le (ih h)

/-- Behind a literal in quotes no more is left than before its content. -/
theorem length_quoted_le {quote : Char} {fault : LexicalFault} {offset : Nat} {s : List Char}
    {next : Cursor} (h : quoted quote fault offset s = .ok next) :
    next.rest.length ≤ s.length := by
  fun_induction quoted quote fault offset s with
  | case1 => cases h
  | case2 => cases h
  | case3 _ _ _ ih => exact Nat.le_succ_of_le (Nat.le_succ_of_le (ih h))
  | case4 => cases h; simp
  | case5 => cases h
  | case6 _ _ _ _ _ _ _ ih => exact Nat.le_succ_of_le (ih h)

theorem length_verbatim_le {offset : Nat} {s : List Char} {next : Cursor}
    (h : verbatim offset s = .ok next) : next.rest.length ≤ s.length := by
  fun_induction verbatim offset s with
  | case1 => cases h
  | case2 _ _ ih => exact Nat.le_succ_of_le (Nat.le_succ_of_le (ih h))
  | case3 => cases h; simp
  | case4 _ _ _ _ _ ih => exact Nat.le_succ_of_le (ih h)

/-- Behind a raw string no more is left than before its content. -/
theorem length_raw_le {quotes run offset : Nat} {s : List Char} {next : Cursor}
    (h : raw quotes run offset s = .ok next) : next.rest.length ≤ s.length := by
  fun_induction raw quotes run offset s with
  | case1 => cases h; simp
  | case2 => cases h
  | case3 _ _ _ ih => exact Nat.le_succ_of_le (ih h)
  | case4 => cases h; simp
  | case5 _ _ _ _ _ _ ih => exact Nat.le_succ_of_le (ih h)

end Literal

end DoubleDispatch
