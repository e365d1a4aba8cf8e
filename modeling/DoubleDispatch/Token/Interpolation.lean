import DoubleDispatch.Text.Slice
import DoubleDispatch.Token.Literal

/-!
# Interpolated strings

An interpolated string alternates between its own text and holes in braces. In a hole braces
nest, and quoted strings, verbatim strings, characters and further interpolated strings are
passed over as a whole, so that their quotes and braces do not count. Strings inside strings are
held on a stack, innermost first.
-/

namespace DoubleDispatch

/-- The state of a scan inside one interpolated string: at depth zero it is in the string's own
text, and at any other depth in a hole with that many braces open. -/
structure Interpolation where
  verbatim : Bool
  depth : Nat
deriving DecidableEq, Repr, Inhabited

namespace Literal

/-- Two characters that stand for text in an interpolated string: doubled braces, a doubled quote
where the string is verbatim, and a backslash with what follows it where it is not. -/
def isTextPair (verbatim : Bool) (c d : Char) : Bool :=
  c == '{' && d == '{' || c == '}' && d == '}' ||
    (if verbatim then c == '"' && d == '"' else c == '\\')

/-- An opening brace is text where another one stands behind it. -/
theorem any_isTextPair_openBrace {verbatim : Bool} {s : List Char} :
    s.head?.any (isTextPair verbatim '{') ↔ s.head? = some '{' := by
  cases verbatim <;> cases s <;> simp [isTextPair]

/-- A quote is text where it is doubled in a verbatim string. -/
theorem any_isTextPair_quote {verbatim : Bool} {s : List Char} :
    s.head?.any (isTextPair verbatim '"') ↔ verbatim ∧ s.head? = some '"' := by
  cases verbatim <;> cases s <;> simp [isTextPair]

/-- A literal that a hole passes over as a whole, where one starts with `c` before `s`. -/
def holeLiteral? (offset : Nat) : Char → List Char → Option Scan
  | '"', s => some (string (offset + 1) s)
  | '\'', s => some (character (offset + 1) s)
  | '@', '"' :: s => some (verbatim (offset + 2) s)
  | _, _ => none

/-- Behind a literal in a hole no more is left than before its content. -/
theorem length_holeLiteral?_le {offset : Nat} {c : Char} {s : List Char} {next : Cursor}
    (h : holeLiteral? offset c s = some (.ok next)) : next.rest.length ≤ s.length := by
  unfold holeLiteral? at h
  split at h
  · exact length_quoted_le (Option.some.inj h)
  · exact length_quoted_le (Option.some.inj h)
  · exact Nat.le_succ_of_le (length_verbatim_le (Option.some.inj h))
  · cases h

/-- Behind the closing quote of the outermost of the strings that are open. -/
def interpolated (inner : Interpolation) (outer : List Interpolation) (offset : Nat) :
    List Char → Scan
  | [] => .error ⟨.openInterpolation, offset⟩
  | c :: s =>
    if inner.depth = 0 then
      if s.head?.any (isTextPair inner.verbatim c) then
        interpolated inner outer (offset + c.utf8Size + Text.byteLength (s.take 1)) (s.drop 1)
      else if c = '"' then
        match outer with
        | [] => .ok ⟨offset + 1, s⟩
        | next :: outer => interpolated next outer (offset + 1) s
      else if c = '{' then interpolated { inner with depth := 1 } outer (offset + 1) s
      else if c = '\n' && !inner.verbatim then .error ⟨.openInterpolation, offset + 1⟩
      else interpolated inner outer (offset + c.utf8Size) s
    else
      match c, s with
      | '{', s => interpolated { inner with depth := inner.depth + 1 } outer (offset + 1) s
      | '}', s => interpolated { inner with depth := inner.depth - 1 } outer (offset + 1) s
      | '$', '"' :: s => interpolated ⟨false, 0⟩ (inner :: outer) (offset + 2) s
      | c, s =>
        match h : holeLiteral? offset c s with
        | some (.ok next) =>
          have := length_holeLiteral?_le h
          interpolated inner outer next.offset next.rest
        | some (.error stop) => .error stop
        | none => interpolated inner outer (offset + c.utf8Size) s
termination_by s => s.length
decreasing_by all_goals simp only [List.length_cons, List.length_drop]; omega

/-! ### One step of a scan -/

/-- A scan that goes on in the strings that are open, innermost first; none is open at its end. -/
def resume : List Interpolation → Nat → List Char → Scan
  | [], n, s => .ok ⟨n, s⟩
  | frame :: frames, n, s => interpolated frame frames n s

section

variable {inner : Interpolation} {outer : List Interpolation} {n : Nat} {c d : Char}
  {s : List Char}

/-- Two characters that stand for one are passed. -/
theorem interpolated_pair (hdepth : inner.depth = 0) (hpair : isTextPair inner.verbatim c d) :
    interpolated inner outer n (c :: d :: s) =
      interpolated inner outer (n + c.utf8Size + d.utf8Size) s := by
  rw [interpolated.eq_def]
  dsimp only
  rw [if_pos hdepth, if_pos (by simpa using hpair)]
  rfl

/-- A quote in the text closes the string, and the one around it goes on. -/
theorem interpolated_quote (hdepth : inner.depth = 0)
    (hpair : ¬s.head?.any (isTextPair inner.verbatim '"')) :
    interpolated inner outer n ('"' :: s) = resume outer (n + 1) s := by
  rw [interpolated.eq_def]
  dsimp only
  rw [if_pos hdepth, if_neg hpair, if_pos rfl]
  cases outer <;> rfl

/-- A single brace in the text opens a hole. -/
theorem interpolated_insert (hdepth : inner.depth = 0)
    (hpair : ¬s.head?.any (isTextPair inner.verbatim '{')) :
    interpolated inner outer n ('{' :: s) =
      interpolated { inner with depth := 1 } outer (n + 1) s := by
  rw [interpolated.eq_def]
  dsimp only
  rw [if_pos hdepth, if_neg hpair, if_neg (by decide), if_pos rfl]

/-- Any other character of a string's own text is passed over, but a line break only where the
string is verbatim. -/
theorem interpolated_text (hdepth : inner.depth = 0)
    (hpair : ¬s.head?.any (isTextPair inner.verbatim c)) (hquote : c ≠ '"') (hopen : c ≠ '{') :
    interpolated inner outer n (c :: s) =
      if c = '\n' && !inner.verbatim then .error ⟨.openInterpolation, n + 1⟩
      else interpolated inner outer (n + c.utf8Size) s := by
  rw [interpolated.eq_def]
  dsimp only
  rw [if_pos hdepth, if_neg hpair, if_neg hquote, if_neg hopen]

/-- A brace in a hole opens one more. -/
theorem interpolated_open (hdepth : inner.depth ≠ 0) :
    interpolated inner outer n ('{' :: s) =
      interpolated { inner with depth := inner.depth + 1 } outer (n + 1) s := by
  rw [interpolated.eq_def]
  dsimp only
  rw [if_neg hdepth]
  rfl

/-- A brace in a hole closes the innermost one. -/
theorem interpolated_close (hdepth : inner.depth ≠ 0) :
    interpolated inner outer n ('}' :: s) =
      interpolated { inner with depth := inner.depth - 1 } outer (n + 1) s := by
  rw [interpolated.eq_def]
  dsimp only
  rw [if_neg hdepth]
  rfl

/-- An interpolated string in a hole is read before the one around it goes on. -/
theorem interpolated_nested (hdepth : inner.depth ≠ 0) :
    interpolated inner outer n ('$' :: '"' :: s) =
      interpolated ⟨false, 0⟩ (inner :: outer) (n + 2) s := by
  rw [interpolated.eq_def]
  dsimp only
  rw [if_neg hdepth]
  rfl

/-- In a hole a character that opens no literal is passed over, and a literal as a whole. -/
theorem interpolated_hole (hdepth : inner.depth ≠ 0) (hopen : c ≠ '{') (hclose : c ≠ '}')
    (hdollar : ∀ s', c = '$' → s ≠ '"' :: s') :
    interpolated inner outer n (c :: s) =
      match holeLiteral? n c s with
      | some (.ok next) => interpolated inner outer next.offset next.rest
      | some (.error stop) => .error stop
      | none => interpolated inner outer (n + c.utf8Size) s := by
  rw [interpolated.eq_def]
  dsimp only
  rw [if_neg hdepth]
  split
  · exact absurd rfl hopen
  · exact absurd rfl hclose
  · exact absurd rfl (hdollar _ rfl)
  · split <;> simp_all

end

/-! ### What is left -/

theorem length_interpolated_le {inner : Interpolation} {outer : List Interpolation}
    {offset : Nat} {s : List Char} {next : Cursor}
    (h : interpolated inner outer offset s = .ok next) : next.rest.length ≤ s.length := by
  fun_induction interpolated inner outer offset s with
  | case1 => cases h
  | case2 _ _ _ _ _ _ _ ih =>
    have := ih h
    rw [List.length_drop] at this
    rw [List.length_cons]
    omega
  | case3 => cases h; simp
  | case4 _ _ _ _ _ _ _ ih => exact Nat.le_succ_of_le (ih h)
  | case5 _ _ _ _ _ _ _ ih => exact Nat.le_succ_of_le (ih h)
  | case6 => cases h
  | case7 _ _ _ _ _ _ _ _ _ _ ih => exact Nat.le_succ_of_le (ih h)
  | case8 _ _ _ _ _ ih => exact Nat.le_succ_of_le (ih h)
  | case9 _ _ _ _ _ ih => exact Nat.le_succ_of_le (ih h)
  | case10 _ _ _ _ _ ih => exact Nat.le_succ_of_le (Nat.le_succ_of_le (ih h))
  | case11 _ _ _ _ _ _ _ _ _ _ _ hle ih => exact Nat.le_succ_of_le (Nat.le_trans (ih h) hle)
  | case12 => cases h
  | case13 _ _ _ _ _ _ _ _ _ _ ih => exact Nat.le_succ_of_le (ih h)

end Literal

end DoubleDispatch
