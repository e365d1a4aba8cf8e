import DoubleDispatch.Proofs.Text.Slice
import DoubleDispatch.Source.Location
import DoubleDispatch.Token.Lexer

/-!
# How far a lexer gets

Every scanner goes forward over whole characters: from the place where it starts it passes over a
prefix of what lies ahead, and its offset grows by the length of this prefix
(`Cursor.Reaches`). This holds where it succeeds and where it gives up, so it is stated once for
both (`Scan.Ahead`) and proved once for each scanner, along its own recursion.

For a source as a whole it follows that each span it is divided into fits
(`Span.Fits`): tokens stand one behind the other and the last one is the end of the
file (`TokensFrom`), and an error spans what was read in vain.
-/

namespace DoubleDispatch

open Text (byteLength IsBoundary)

/-- A span lies within a source, runs forward, and starts and stops between characters. -/
structure Span.Fits (source : List Char) (span : Span) : Prop where
  le : span.start ≤ span.stop
  start : IsBoundary source span.start
  stop : IsBoundary source span.stop

/-! ### Going forward -/

namespace Cursor

/-- From the first place to the second, the given text is passed over. -/
def Spells (a : Cursor) (passed : List Char) (b : Cursor) : Prop :=
  a.rest = passed ++ b.rest ∧ b.offset = a.offset + byteLength passed

/-- From the first place to the second, a prefix of what lies ahead is passed over. -/
def Reaches (a b : Cursor) : Prop := ∃ passed, a.Spells passed b

namespace Spells

/-- What is spelled up to a place and from there on is spelled together. -/
theorem trans {a b c : Cursor} {passed later : List Char} (hab : a.Spells passed b)
    (hbc : b.Spells later c) : a.Spells (passed ++ later) c := by
  obtain ⟨hrest, hoffset⟩ := hab
  obtain ⟨hrest', hoffset'⟩ := hbc
  refine ⟨?_, ?_⟩
  · rw [hrest, hrest', List.append_assoc]
  · rw [hoffset', hoffset, Text.byteLength_append, Nat.add_assoc]

/-- One character spells itself. -/
theorem cons (n : Nat) (c : Char) (s : List Char) :
    Spells ⟨n, c :: s⟩ [c] ⟨n + c.utf8Size, s⟩ :=
  ⟨rfl, rfl⟩

/-- A character of ASCII takes one byte. -/
theorem ascii {n : Nat} {c : Char} {s : List Char} (h : c.toNat < 128) :
    Spells ⟨n, c :: s⟩ [c] ⟨n + 1, s⟩ := by
  rw [← Text.utf8Size_eq_one h]
  exact cons n c s

/-- Two characters of ASCII take two bytes. -/
theorem ascii₂ {n : Nat} {c d : Char} {s : List Char} (hc : c.toNat < 128) (hd : d.toNat < 128) :
    Spells ⟨n, c :: d :: s⟩ [c, d] ⟨n + 2, s⟩ :=
  (ascii hc).trans (ascii hd)

end Spells

namespace Reaches

theorem refl (a : Cursor) : a.Reaches a := ⟨[], rfl, rfl⟩

/-- A place behind a place behind a cursor is behind it. -/
theorem trans {a b c : Cursor} (hab : a.Reaches b) (hbc : b.Reaches c) : a.Reaches c := by
  obtain ⟨passed, hpassed⟩ := hab
  obtain ⟨later, hlater⟩ := hbc
  exact ⟨passed ++ later, hpassed.trans hlater⟩

theorem cons (n : Nat) (c : Char) (s : List Char) :
    Reaches ⟨n, c :: s⟩ ⟨n + c.utf8Size, s⟩ :=
  ⟨[c], .cons n c s⟩

theorem ascii {n : Nat} {c : Char} {s : List Char} (h : c.toNat < 128) :
    Reaches ⟨n, c :: s⟩ ⟨n + 1, s⟩ :=
  ⟨[c], .ascii h⟩

theorem ascii₂ {n : Nat} {c d : Char} {s : List Char} (hc : c.toNat < 128) (hd : d.toNat < 128) :
    Reaches ⟨n, c :: d :: s⟩ ⟨n + 2, s⟩ :=
  ⟨[c, d], .ascii₂ hc hd⟩

/-- A run of one character of ASCII takes as many bytes as it is long. -/
theorem run {c : Char} (h : c.toNat < 128) (n : Nat) (s : List Char) :
    Reaches ⟨n, s⟩ ⟨n + Literal.runLength c s, s.drop (Literal.runLength c s)⟩ := by
  induction s generalizing n with
  | nil => exact refl _
  | cons d s ih =>
    by_cases hd : d = c
    · subst hd
      rw [Literal.runLength_cons_self, List.drop_succ_cons, ← Nat.add_assoc, Nat.add_right_comm]
      exact (ascii h).trans (ih (n + 1))
    · rw [Literal.runLength_cons_of_ne hd]
      exact refl _

/-- A cursor never goes back. -/
theorem offset_le {a b : Cursor} (h : a.Reaches b) : a.offset ≤ b.offset := by
  obtain ⟨passed, -, hoffset⟩ := h
  rw [hoffset]
  exact Nat.le_add_right _ _

/-- Who has less ahead has got further. -/
theorem offset_lt {a b : Cursor} (h : a.Reaches b) (hlt : b.rest.length < a.rest.length) :
    a.offset < b.offset := by
  obtain ⟨passed, hrest, hoffset⟩ := h
  have hne : passed ≠ [] := by
    rintro rfl
    rw [hrest] at hlt
    exact Nat.lt_irrefl _ hlt
  rw [hoffset]
  exact Nat.lt_add_of_pos_right (Text.byteLength_pos hne)

end Reaches

/-- A place in a source: what lies ahead is what follows a prefix as long as the offset says. -/
def In (source : List Char) (a : Cursor) : Prop :=
  ∃ before, source = before ++ a.rest ∧ a.offset = byteLength before

/-- A cursor stands between two characters of the source. -/
theorem In.isBoundary {source : List Char} {a : Cursor} (h : a.In source) :
    IsBoundary source a.offset := by
  obtain ⟨before, hs, hn⟩ := h
  exact ⟨before, a.rest, hs, hn.symm⟩

/-- What is passed over between two places is the slice of the source between them. -/
theorem In.slice_eq {source passed : List Char} {a b : Cursor} (h : a.In source)
    (hab : a.Spells passed b) : Text.slice a.offset b.offset source = passed := by
  obtain ⟨before, hs, hn⟩ := h
  obtain ⟨hrest, hoffset⟩ := hab
  rw [hs, hrest, hoffset, hn]
  exact Text.slice_append before passed b.rest

/-- From a place in a source only places in this source are reached. -/
theorem In.of_reaches {source : List Char} {a b : Cursor} (h : a.In source) (hab : a.Reaches b) :
    b.In source := by
  obtain ⟨before, hs, hn⟩ := h
  obtain ⟨passed, hrest, hoffset⟩ := hab
  refine ⟨before ++ passed, ?_, ?_⟩
  · rw [hs, hrest, List.append_assoc]
  · rw [hoffset, hn, Text.byteLength_append]

end Cursor

/-- A scan that starts at a place ends at one ahead of it, whether it succeeds or gives up. -/
def Scan.Ahead (a : Cursor) : Scan → Prop
  | .ok next => a.Reaches next
  | .error stop => ∃ rest, a.Reaches ⟨stop.offset, rest⟩

/-- What a scan gives from further on is ahead from here. -/
theorem Scan.Ahead.trans {a b : Cursor} {scan : Scan} (hab : a.Reaches b) (h : Scan.Ahead b scan) :
    Scan.Ahead a scan := by
  cases scan with
  | ok next => exact hab.trans h
  | error stop =>
    obtain ⟨rest, h⟩ := h
    exact ⟨rest, hab.trans h⟩

/-! ### Scanners -/

namespace Literal

open Cursor.Reaches (cons ascii ascii₂ run)

/-- Skipping characters of a kind takes the longest run of them. -/
theorem skipWhile_eq (p : Char → Bool) (n : Nat) (s : List Char) :
    skipWhile p n s = ⟨n + byteLength (s.takeWhile p), s.dropWhile p⟩ := by
  induction s generalizing n with
  | nil => rfl
  | cons c s ih =>
    rw [skipWhile]
    split
    next hc =>
      rw [ih, List.takeWhile_cons_of_pos hc, List.dropWhile_cons_of_pos hc, Text.byteLength_cons,
        Nat.add_assoc]
    next hc =>
      rw [List.takeWhile_cons_of_neg hc, List.dropWhile_cons_of_neg hc]
      rfl

theorem spells_skipWhile (p : Char → Bool) (n : Nat) (s : List Char) :
    Cursor.Spells ⟨n, s⟩ (s.takeWhile p) (skipWhile p n s) := by
  rw [skipWhile_eq]
  exact ⟨List.takeWhile_append_dropWhile.symm, rfl⟩

/-- Skipping characters leads on. -/
theorem reaches_skipWhile (p : Char → Bool) (n : Nat) (s : List Char) :
    Cursor.Reaches ⟨n, s⟩ (skipWhile p n s) :=
  ⟨s.takeWhile p, spells_skipWhile p n s⟩

/-- The letters and digits of a number are ASCII. -/
theorem toNat_lt_of_isAlphanum {c : Char} (h : c.isAlphanum) : c.toNat < 128 := by
  delta Char.isAlphanum Char.isAlpha Char.isUpper Char.isLower Char.isDigit at h
  simp only [Bool.or_eq_true, Bool.and_eq_true, decide_eq_true_eq, ge_iff_le,
    UInt32.le_iff_toNat_le] at h
  have hc : c.toNat = c.val.toNat := rfl
  have hZ : 'Z'.val.toNat = 90 := rfl
  have hz : 'z'.val.toNat = 122 := rfl
  have h9 : '9'.val.toNat = 57 := rfl
  omega

/-- Reading a number leads on. -/
theorem reaches_number (n : Nat) (s : List Char) : Cursor.Reaches ⟨n, s⟩ (number n s) := by
  induction s generalizing n with
  | nil => exact .refl _
  | cons c s ih =>
    rw [number]
    split
    next h =>
      refine (ascii ?_).trans (ih _)
      simp only [Bool.or_eq_true, Bool.and_eq_true, beq_iff_eq] at h
      rcases h with (h | rfl) | ⟨rfl, -⟩
      · exact toNat_lt_of_isAlphanum h
      · decide
      · decide
    · exact .refl _

/-- A comment closes ahead, or is unclosed at the end ahead. -/
theorem ahead_blockComment (n : Nat) (s : List Char) :
    Scan.Ahead ⟨n, s⟩ (blockComment n s) := by
  fun_induction blockComment n s with
  | case1 => exact ⟨_, .refl _⟩
  | case2 => exact ascii₂ (by decide) (by decide)
  | case3 n c s _ ih => exact ih.trans (cons n c s)

/-- A literal in quotes closes or fails ahead. -/
theorem ahead_quoted (quote : Char) (fault : LexicalFault) (n : Nat) (s : List Char) :
    Scan.Ahead ⟨n, s⟩ (quoted quote fault n s) := by
  fun_induction quoted quote fault n s with
  | case1 => exact ⟨_, .refl _⟩
  | case2 => exact ⟨[], ascii (by decide)⟩
  | case3 n c s ih => exact ih.trans ((ascii (by decide)).trans (cons _ c s))
  | case4 n s => exact cons n _ s
  | case5 n s => exact ⟨s, ascii (by decide)⟩
  | case6 n c s _ _ _ _ ih => exact ih.trans (cons n c s)

/-- A verbatim string closes or fails ahead. -/
theorem ahead_verbatim (n : Nat) (s : List Char) : Scan.Ahead ⟨n, s⟩ (verbatim n s) := by
  fun_induction verbatim n s with
  | case1 => exact ⟨_, .refl _⟩
  | case2 _ _ ih => exact ih.trans (ascii₂ (by decide) (by decide))
  | case3 => exact ascii (by decide)
  | case4 n c s _ _ ih => exact ih.trans (cons n c s)

/-- A raw string closes or fails ahead. -/
theorem ahead_raw (quotes count n : Nat) (s : List Char) :
    Scan.Ahead ⟨n, s⟩ (raw quotes count n s) := by
  fun_induction raw quotes count n s with
  | case1 => exact .refl _
  | case2 => exact ⟨_, .refl _⟩
  | case3 _ _ _ ih => exact ih.trans (ascii (by decide))
  | case4 => exact .refl _
  | case5 _ n c s _ _ ih => exact ih.trans (cons n c s)

/-- A literal in a hole closes or fails ahead. -/
theorem ahead_holeLiteral? {n : Nat} {c : Char} {s : List Char} {scan : Scan}
    (h : holeLiteral? n c s = some scan) : Scan.Ahead ⟨n, c :: s⟩ scan := by
  unfold holeLiteral? at h
  split at h
  · cases h
    exact (ahead_quoted _ _ _ _).trans (ascii (by decide))
  · cases h
    exact (ahead_quoted _ _ _ _).trans (ascii (by decide))
  · cases h
    exact (ahead_verbatim _ _).trans (ascii₂ (by decide) (by decide))
  · cases h

/-- An interpolated string closes or fails ahead, by induction on the text. -/
theorem ahead_interpolated (inner : Interpolation) (outer : List Interpolation) (n : Nat)
    (s : List Char) : Scan.Ahead ⟨n, s⟩ (interpolated inner outer n s) := by
  fun_induction interpolated inner outer n s with
  | case1 => exact ⟨_, .refl _⟩
  | case2 _ _ n c s _ _ ih =>
    -- A backslash takes the next character with it, if there is one.
    refine ih.trans ((cons n c s).trans ⟨s.take 1, (List.take_append_drop 1 s).symm, rfl⟩)
  | case3 => exact ascii (by decide)
  | case4 _ _ _ _ _ _ _ ih => exact ih.trans (ascii (by decide))
  | case5 _ _ _ _ _ _ _ ih => exact ih.trans (ascii (by decide))
  | case6 _ _ n c s _ _ _ _ h =>
    obtain ⟨rfl, -⟩ : c = '\n' ∧ _ := by simpa only [Bool.and_eq_true, decide_eq_true_eq] using h
    exact ⟨s, ascii (by decide)⟩
  | case7 _ _ n c s _ _ _ _ _ ih => exact ih.trans (cons n c s)
  | case8 _ _ _ _ _ ih => exact ih.trans (ascii (by decide))
  | case9 _ _ _ _ _ ih => exact ih.trans (ascii (by decide))
  | case10 _ _ _ _ _ ih => exact ih.trans (ascii₂ (by decide) (by decide))
  | case11 _ _ _ _ _ _ _ _ _ _ h _ ih => exact ih.trans (ahead_holeLiteral? h)
  | case12 _ _ _ _ _ _ _ _ _ _ h => exact ahead_holeLiteral? h
  | case13 _ _ n _ c s _ _ _ _ ih => exact ih.trans (cons n c s)

end Literal

/-! ### Lexemes -/

namespace Lexer

open Cursor.Reaches (cons ascii ascii₂ run)

/-- A string of any form closes or fails ahead. -/
theorem ahead_stringFrom (n : Nat) (s : List Char) :
    Scan.Ahead ⟨n, '"' :: s⟩ (stringFrom n ('"' :: s)) := by
  have hrun := run (c := '"') (by decide) n ('"' :: s)
  simp only [stringFrom]
  split
  · exact (Literal.ahead_raw _ _ _ _).trans hrun
  · split
    next htwo =>
      rw [htwo] at hrun
      rw [htwo]
      exact hrun
    · exact (Literal.ahead_quoted _ _ _ _).trans (ascii (by decide))

theorem ahead_dollarString (n : Nat) (s : List Char) :
    Scan.Ahead ⟨n, s⟩ (dollarString n s) := by
  have hrun := run (c := '$') (by decide) n s
  simp only [dollarString]
  split
  next t ht =>
    rw [ht] at hrun
    refine (Literal.ahead_interpolated _ _ _ _).trans (hrun.trans ?_)
    exact ascii₂ (by decide) (by decide)
  next t ht =>
    rw [ht] at hrun
    split
    · exact (Literal.ahead_raw _ _ _ _).trans (hrun.trans (run (by decide) _ _))
    · exact (Literal.ahead_interpolated _ _ _ _).trans (hrun.trans (ascii (by decide)))
  next => exact ⟨_, hrun⟩

/-- A step goes forward from a place. It never takes the end of the file, and the name of an
identifier is the text that is passed over last. -/
structure Goes (a : Cursor) (st : Step) : Prop where
  reaches : a.Reaches st.next
  kind : st.kind? ≠ some .endOfFile
  name : ∀ name, st.kind? = some (.identifier name) →
    ∃ start, a.Reaches start ∧ start.Spells name.toList st.next

/-- A step over anything but an identifier. -/
theorem Goes.of_name?_eq_none {a : Cursor} {st : Step} (h : a.Reaches st.next)
    (hk : ∀ kind, st.kind? = some kind → kind ≠ .endOfFile ∧ kind.name? = none) : Goes a st where
  reaches := h
  kind := fun heq ↦ (hk _ heq).1 rfl
  name := fun name heq ↦ by
    have hnone := (hk _ heq).2
    cases hnone

/-- A step that starts at a place goes forward from it, or gives up ahead of it. -/
def Ahead (a : Cursor) : Except ScanStop Step → Prop
  | .ok st => Goes a st
  | .error stop => ∃ rest, a.Reaches ⟨stop.offset, rest⟩

theorem goes_passed {a next : Cursor} (h : a.Reaches next) : Goes a (passed next) :=
  .of_name?_eq_none h nofun

theorem goes_literal {a next : Cursor} (h : a.Reaches next) : Goes a (literal next) := by
  refine .of_name?_eq_none h fun kind hk ↦ ?_
  cases hk
  exact ⟨nofun, rfl⟩

theorem goes_identifier {a : Cursor} {n : Nat} {s : List Char} (h : a.Reaches ⟨n, s⟩) :
    Goes a (identifier n s) where
  reaches := h.trans (Literal.reaches_skipWhile _ n s)
  kind := nofun
  name := by
    intro name hname
    cases hname
    refine ⟨⟨n, s⟩, h, ?_⟩
    rw [String.toList_ofList, identifier, Literal.skipWhile_eq]
    exact ⟨List.takeWhile_append_dropWhile.symm, rfl⟩

/-- A step that is made of a scan goes where the scan does. -/
theorem ahead_map {a : Cursor} {scan : Scan} {f : Cursor → Step}
    (hf : ∀ next, a.Reaches next → Goes a (f next)) (h : Scan.Ahead a scan) :
    Ahead a (f <$> scan) := by
  cases scan with
  | ok next => exact hf next h
  | error stop => exact h

/-- A punctuation mark takes one character. -/
theorem goes_punctuation (n : Nat) (c : Char) (s : List Char) :
    Goes ⟨n, c :: s⟩ ⟨some (punctuation c), ⟨n + c.utf8Size, s⟩, false⟩ := by
  refine .of_name?_eq_none (cons n c s) fun kind hk ↦ ?_
  cases hk
  unfold punctuation
  split <;> exact ⟨nofun, rfl⟩

/-- **A lexeme leads on**, or fails ahead. -/
theorem ahead_lexeme (n : Nat) (c : Char) (s : List Char) : Ahead ⟨n, c :: s⟩ (lexeme n c s) := by
  fun_cases lexeme n c s with
  | case1 s =>
    exact goes_passed ((ascii₂ (by decide) (by decide)).trans (Literal.reaches_skipWhile _ _ _))
  | case2 s =>
    refine ahead_map (fun _ ↦ goes_passed) ?_
    exact (Literal.ahead_blockComment _ _).trans (ascii₂ (by decide) (by decide))
  | case3 s => exact ahead_map (fun _ ↦ goes_literal) (ahead_stringFrom n s)
  | case4 s =>
    refine ahead_map (fun _ ↦ goes_literal) ?_
    exact (Literal.ahead_verbatim _ _).trans (ascii₂ (by decide) (by decide))
  | case5 s =>
    refine ahead_map (fun _ ↦ goes_literal) ((Literal.ahead_interpolated _ _ _ _).trans ?_)
    exact (ascii₂ (by decide) (by decide)).trans (ascii (by decide))
  | case6 s => exact ahead_map (fun _ ↦ goes_literal) (ahead_dollarString n ('$' :: s))
  | case7 s =>
    refine ahead_map (fun _ ↦ goes_literal) ?_
    exact (Literal.ahead_quoted _ _ _ _).trans (ascii (by decide))
  | case8 s =>
    refine Goes.of_name?_eq_none (ascii₂ (by decide) (by decide)) fun kind hk ↦ ?_
    cases hk
    exact ⟨nofun, rfl⟩
  | case9 c s _ _ _ _ _ _ _ _ h =>
    have hc : c.toNat < 128 := Literal.toNat_lt_of_isAlphanum (by simp [Char.isAlphanum, h])
    exact goes_literal ((ascii hc).trans (Literal.reaches_number _ _))
  | case10 c s => exact goes_identifier (.refl _)
  | case11 c s _ _ _ _ _ _ _ _ _ _ h =>
    obtain ⟨rfl, -⟩ : c = '@' ∧ _ := by simpa only [Bool.and_eq_true, decide_eq_true_eq] using h
    exact goes_identifier (ascii (by decide))
  | case12 c s => exact goes_punctuation n c s

/-- **A step of the lexer leads on**, or fails ahead. -/
theorem ahead_step (lineStart : Bool) (n : Nat) (c : Char) (s : List Char) :
    Ahead ⟨n, c :: s⟩ (step lineStart n c s) := by
  rw [step]
  split
  · exact Goes.of_name?_eq_none (cons n c s) nofun
  · split
    next h =>
      obtain ⟨rfl, -⟩ : c = '#' ∧ _ := by simpa only [Bool.and_eq_true, decide_eq_true_eq] using h
      refine Goes.of_name?_eq_none ?_ nofun
      exact (ascii (by decide)).trans (Literal.reaches_skipWhile _ _ _)
    · exact ahead_lexeme n c s

end Lexer

/-! ### The division of a source -/

/-- A token stands in a source: it fits, it is not empty, and if it is an identifier, its name is
the text from some place in it to its end. -/
structure Token.StandsIn (source : List Char) (t : Token) : Prop where
  fits : t.span.Fits source
  lt : t.span.start < t.span.stop
  name : ∀ name, t.kind = .identifier name → ∃ start, t.span.start ≤ start ∧
    Span.Fits source ⟨start, t.span.stop⟩ ∧ Text.slice start t.span.stop source = name.toList

/-- Tokens stand in a source from an offset on, one behind the other, none of them empty and none
in the middle of a character. Only the last one is the end of the file. -/
inductive TokensFrom (source : List Char) : Nat → List Token → Prop
  | endOfFile {n : Nat} (start : n ≤ byteLength source) :
    TokensFrom source n [⟨.endOfFile, ⟨byteLength source, byteLength source⟩⟩]
  | cons {n : Nat} {t : Token} {ts : List Token} (kind : t.kind ≠ .endOfFile)
      (start : n ≤ t.span.start) (stands : t.StandsIn source)
      (later : TokensFrom source t.span.stop ts) :
    TokensFrom source n (t :: ts)

namespace TokensFrom

variable {source : List Char} {n m : Nat} {ts : List Token}

/-- Tokens from an offset on are tokens from any offset before. -/
theorem of_le (h : TokensFrom source m ts) (hle : n ≤ m) : TokensFrom source n ts := by
  cases h with
  | endOfFile start => exact .endOfFile (Nat.le_trans hle start)
  | cons kind start stands later => exact .cons kind (Nat.le_trans hle start) stands later

/-- There is always a token ahead. -/
theorem ne_nil (h : TokensFrom source n ts) : ts ≠ [] := by
  rintro rfl
  cases h

/-- The end of the file is the last token and no other. -/
theorem exists_eq_concat (h : TokensFrom source n ts) :
    ∃ tokens, ts = tokens ++ [⟨.endOfFile, ⟨byteLength source, byteLength source⟩⟩] ∧
      ∀ t ∈ tokens, t.kind ≠ .endOfFile ∧ t.StandsIn source := by
  induction h with
  | endOfFile => exact ⟨[], rfl, by simp⟩
  | @cons _ t _ kind _ stands _ ih =>
    obtain ⟨tokens, rfl, htokens⟩ := ih
    exact ⟨t :: tokens, rfl, List.forall_mem_cons.2 ⟨⟨kind, stands⟩, htokens⟩⟩

/-- No token starts before the offset they are from. -/
theorem start_le (h : TokensFrom source n ts) : ∀ t ∈ ts, n ≤ t.span.start := by
  induction h with
  | endOfFile start => simpa using start
  | cons _ start stands _ ih =>
    have hle := Nat.le_trans start (Nat.le_of_lt stands.lt)
    exact List.forall_mem_cons.2 ⟨start, fun t ht ↦ Nat.le_trans hle (ih t ht)⟩

/-- All later tokens start behind the first one. -/
theorem lt_start {token : Token} (h : TokensFrom source n (token :: ts)) :
    ∀ later ∈ ts, n < later.span.start := by
  cases h with
  | endOfFile => simp
  | cons _ start stands hts =>
    intro later hlater
    exact Nat.lt_of_le_of_lt start (Nat.lt_of_lt_of_le stands.lt (hts.start_le later hlater))

/-- No token stops before it starts. -/
theorem start_le_stop (h : TokensFrom source n ts) : ∀ t ∈ ts, t.span.start ≤ t.span.stop := by
  induction h with
  | endOfFile => simp
  | cons _ _ stands _ ih => exact List.forall_mem_cons.2 ⟨stands.fits.le, ih⟩

/-- No two tokens stand at the same place. -/
theorem nodup_spans (h : TokensFrom source n ts) : (ts.map (·.span)).Nodup := by
  induction h with
  | endOfFile => simp
  | @cons _ t ts _ _ stands later ih =>
    refine List.nodup_cons.2 ⟨fun hmem ↦ ?_, ih⟩
    obtain ⟨u, hu, hspan⟩ := List.mem_map.1 hmem
    have hle := later.start_le u hu
    rw [hspan] at hle
    exact absurd stands.lt (Nat.not_lt.2 hle)

end TokensFrom

namespace Lexer

/-- What a lexer gives for a source: tokens that stand in it from an offset on, or an error that
fits it. -/
def Divides (source : List Char) (n : Nat) : Except LexError (List Token) → Prop
  | .ok tokens => TokensFrom source n tokens
  | .error e => e.span.Fits source

theorem Divides.of_le {source : List Char} {n m : Nat} {tokens : Except LexError (List Token)}
    (h : Divides source m tokens) (hle : n ≤ m) : Divides source n tokens := by
  cases tokens with
  | error e => exact h
  | ok tokens => exact TokensFrom.of_le h hle

/-- **A source divides into tokens that stand in it**, or into some of them and a failed lexeme. -/
theorem divides_tokensFrom {source : List Char} (lineStart : Bool) {n : Nat}
    {s : List Char} (hs : Cursor.In source ⟨n, s⟩) :
    Divides source n (tokensFrom lineStart n s) := by
  fun_induction tokensFrom lineStart n s with
  | case1 =>
    obtain ⟨before, rfl, rfl⟩ := hs
    rw [List.append_nil]
    exact .endOfFile (Nat.le_refl _)
  | case2 lineStart n c s stop hstep =>
    have hahead := ahead_step lineStart n c s
    rw [hstep] at hahead
    obtain ⟨rest, hreach⟩ := hahead
    exact ⟨hreach.offset_le, hs.isBoundary, (hs.of_reaches hreach).isBoundary⟩
  | case3 lineStart n c s st hstep hle hkind ih =>
    have hahead := ahead_step lineStart n c s
    rw [hstep] at hahead
    exact (ih (hs.of_reaches hahead.reaches)).of_le hahead.reaches.offset_le
  | case4 lineStart n c s st hstep hle kind hkind ih =>
    have hahead := ahead_step lineStart n c s
    rw [hstep] at hahead
    obtain ⟨hreach, hne, hname⟩ := hahead
    have hnext := hs.of_reaches hreach
    -- The lexer only goes on if less is ahead, so no token is empty.
    have hlt : n < st.next.offset := hreach.offset_lt (Nat.lt_succ_of_le hle)
    have hdivides := ih hnext
    cases htokens : tokensFrom st.lineStart st.next.offset st.next.rest with
    | error e => rw [htokens] at hdivides; exact hdivides
    | ok tokens =>
      rw [htokens] at hdivides
      rw [hkind] at hne hname
      refine .cons (fun heq ↦ hne (congrArg some heq)) (Nat.le_refl n) ?_ hdivides
      refine ⟨⟨Nat.le_of_lt hlt, hs.isBoundary, hnext.isBoundary⟩, hlt, fun name heq ↦ ?_⟩
      obtain ⟨start, hstart, hspells⟩ := hname name (congrArg some heq)
      have hin := hs.of_reaches hstart
      refine ⟨start.offset, hstart.offset_le, ⟨?_, hin.isBoundary, hnext.isBoundary⟩, ?_⟩
      · exact Cursor.Reaches.offset_le ⟨_, hspells⟩
      · exact hin.slice_eq hspells

end Lexer

/-- What tokenizing gives for a source. -/
theorem divides_tokenize (source : String) : Lexer.Divides source.toList 0 (tokenize source) :=
  Lexer.divides_tokensFrom true ⟨[], rfl, rfl⟩

/-- The tokens of a source are tokens from its start on. -/
theorem tokensFrom_of_tokenize {source : String} {tokens : List Token}
    (h : tokenize source = .ok tokens) : TokensFrom source.toList 0 tokens := by
  have hdivides := divides_tokenize source
  rwa [h] at hdivides

end DoubleDispatch
