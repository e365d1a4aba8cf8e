import DoubleDispatch.Proofs.Token.Translation

/-!
# The texts of interpolated strings

An interpolated string is text with holes in it, and what a hole holds is put together from literals
of some forms, groups in braces and other characters (`IsStretch`). A scan passes over exactly these
texts: it ends behind the first quote that closes such a string (`Literal.interpolated_eq_ok_iff`).
The scan keeps the strings around the one that it is in on a stack, so what it has passed over is
put together for each of them, innermost first (`Literal.Unwinds`).
-/

namespace DoubleDispatch

open Text (byteLength)

namespace Literal

/-! ### Quoted and verbatim literals -/

/-- What stands behind an opening quote, up to and with the quote that closes it. -/
inductive IsQuoted (quote : Char) : List Char → Prop
  | close : IsQuoted quote [quote]
  | escape {c : Char} {s : List Char} (h : IsQuoted quote s) : IsQuoted quote ('\\' :: c :: s)
  | char {c : Char} {s : List Char} (hquote : c ≠ quote) (hescape : c ≠ '\\') (hline : c ≠ '\n')
      (h : IsQuoted quote s) : IsQuoted quote (c :: s)

/-- What stands behind the opening quote of a verbatim string, up to and with the closing one. -/
inductive IsVerbatim : List Char → Prop
  | close : IsVerbatim ['"']
  | pair {s : List Char} (h : IsVerbatim s) : IsVerbatim ('"' :: '"' :: s)
  | char {c : Char} {s : List Char} (hquote : c ≠ '"') (h : IsVerbatim s) : IsVerbatim (c :: s)

section

variable {quote : Char} {fault : LexicalFault} {n m : Nat} {s r : List Char}

/-- A literal in quotes is read to its closing quote, whatever follows. -/
theorem quoted_append (hquote : quote ≠ '\\') (h : IsQuoted quote s) (n : Nat) (t : List Char) :
    quoted quote fault n (s ++ t) = .ok ⟨n + byteLength s, t⟩ := by
  induction h generalizing n with
  | close => rw [List.singleton_append, quoted_cons hquote, if_pos rfl]; rfl
  | escape _ ih =>
    rw [List.cons_append, List.cons_append, quoted, ih]
    simp only [Text.byteLength_cons, Nat.add_assoc]
    rfl
  | char hne hescape hline _ ih =>
    rw [List.cons_append, quoted_cons hescape, if_neg hne, if_neg hline, ih, Text.byteLength_cons,
      Nat.add_assoc]

/-- What was read up to a closing quote is a literal in quotes. -/
theorem exists_of_quoted (h : quoted quote fault n s = .ok ⟨m, r⟩) :
    ∃ body, IsQuoted quote body ∧ s = body ++ r := by
  fun_induction quoted quote fault n s with
  | case1 => cases h
  | case2 => cases h
  | case3 n c s ih =>
    obtain ⟨body, hbody, rfl⟩ := ih h
    exact ⟨_, .escape hbody, rfl⟩
  | case4 n s =>
    cases h
    exact ⟨_, .close, rfl⟩
  | case5 => cases h
  | case6 n c s hlast hescape hne hline ih =>
    obtain ⟨body, hbody, rfl⟩ := ih h
    exact ⟨_, .char hne (ne_backslash hlast hescape) hline hbody, rfl⟩

/-- A verbatim string is read to its closing quote, if no other quote follows. -/
theorem verbatim_append (h : IsVerbatim s) (n : Nat) {t : List Char} (ht : t.head? ≠ some '"') :
    verbatim n (s ++ t) = .ok ⟨n + byteLength s, t⟩ := by
  induction h generalizing n with
  | close =>
    rw [List.singleton_append, verbatim_quote ht]
    rfl
  | pair _ ih =>
    rw [List.cons_append, List.cons_append, verbatim, ih, Nat.add_assoc]
    simp only [Text.byteLength_cons, ← Nat.add_assoc]
    rfl
  | char hquote _ ih =>
    rw [List.cons_append, verbatim_cons hquote, ih, Text.byteLength_cons, Nat.add_assoc]

/-- What was read up to a single quote is a verbatim string. -/
theorem exists_of_verbatim (h : verbatim n s = .ok ⟨m, r⟩) :
    ∃ body, IsVerbatim body ∧ s = body ++ r ∧ r.head? ≠ some '"' := by
  fun_induction verbatim n s with
  | case1 => cases h
  | case2 n s ih =>
    obtain ⟨body, hbody, rfl, hr⟩ := ih h
    exact ⟨_, .pair hbody, rfl, hr⟩
  | case3 n s hpair =>
    cases h
    refine ⟨_, .close, rfl, fun hhead ↦ ?_⟩
    obtain ⟨u, rfl⟩ := List.head?_eq_some_iff.1 hhead
    exact hpair u rfl
  | case4 n c s _ hquote ih =>
    obtain ⟨body, hbody, rfl, hr⟩ := ih h
    exact ⟨_, .char hquote hbody, rfl, hr⟩

end

end Literal

/-! ### Stretches -/

/-- The two kinds of stretches that an interpolated string is made of. -/
inductive Stretch where
  | text (verbatim : Bool)
  | hole
deriving DecidableEq, Repr

/-- The character that ends a stretch. -/
def Stretch.closer : Stretch → Char
  | text _ => '"'
  | hole => '}'

namespace Interpolation

/-- The stretch that a scan is in. -/
def stretch (frame : Interpolation) : Stretch :=
  if frame.depth = 0 then .text frame.verbatim else .hole

theorem text_of_stretch {frame : Interpolation} {verbatim : Bool}
    (h : frame.stretch = .text verbatim) : frame.depth = 0 ∧ frame.verbatim = verbatim := by
  by_cases hdepth : frame.depth = 0
  · rw [stretch, if_pos hdepth] at h
    exact ⟨hdepth, Stretch.text.inj h⟩
  · rw [stretch, if_neg hdepth] at h
    cases h

/-- In a hole a brace is open. -/
theorem depth_ne_zero {frame : Interpolation} (h : frame.stretch = .hole) : frame.depth ≠ 0 := by
  intro hdepth
  rw [stretch, if_pos hdepth] at h
  cases h

end Interpolation

/-- The texts of stretches. -/
inductive IsStretch : Stretch → List Char → Prop
  | textEnd {verbatim : Bool} : IsStretch (.text verbatim) []
  | pair {verbatim : Bool} {c d : Char} {s : List Char}
      (hpair : Literal.isTextPair verbatim c d) (h : IsStretch (.text verbatim) s) :
    IsStretch (.text verbatim) (c :: d :: s)
  /-- A character that is not half of a pair, also with the quote behind the text. -/
  | character {verbatim : Bool} {c : Char} {s : List Char} (hquote : c ≠ '"') (hopen : c ≠ '{')
      (hline : c = '\n' → verbatim = true)
      (hpair : (s ++ ['"']).head?.any (Literal.isTextPair verbatim c) = false)
      (h : IsStretch (.text verbatim) s) : IsStretch (.text verbatim) (c :: s)
  | insert {verbatim : Bool} {hole s : List Char} (hhole : IsStretch .hole hole)
      (hpair : hole.head? ≠ some '{') (h : IsStretch (.text verbatim) s) :
    IsStretch (.text verbatim) ('{' :: (hole ++ '}' :: s))
  | holeEnd : IsStretch .hole []
  | group {inside s : List Char} (hinside : IsStretch .hole inside) (h : IsStretch .hole s) :
    IsStretch .hole ('{' :: (inside ++ '}' :: s))
  | quoted {quote : Char} {body s : List Char} (hquote : quote = '"' ∨ quote = '\'')
      (hbody : Literal.IsQuoted quote body) (h : IsStretch .hole s) :
    IsStretch .hole (quote :: (body ++ s))
  | verbatim {body s : List Char} (hbody : Literal.IsVerbatim body) (hpair : s.head? ≠ some '"')
      (h : IsStretch .hole s) : IsStretch .hole ('@' :: '"' :: (body ++ s))
  | nested {text s : List Char} (htext : IsStretch (.text false) text) (h : IsStretch .hole s) :
    IsStretch .hole ('$' :: '"' :: (text ++ '"' :: s))
  | other {c : Char} {s : List Char} (hc : c ∉ ['{', '}', '"', '\''])
      (hsign : c = '@' ∨ c = '$' → s.head? ≠ some '"') (h : IsStretch .hole s) :
    IsStretch .hole (c :: s)

namespace Literal

/-! ### Steps over the parts of stretches -/

section

variable {inner : Interpolation} {outer : List Interpolation} {n : Nat} {c : Char} {s : List Char}

/-- What a brace opens is left with the depth that it was entered from. -/
theorem interpolated_leave {depth : Nat} (hdepth : inner.depth = depth) :
    interpolated { inner with depth := depth + 1 } outer n ('}' :: s) =
      interpolated inner outer (n + 1) s := by
  subst hdepth
  exact interpolated_close (Nat.succ_ne_zero _)

/-- The quote behind the text of a string closes the string. -/
theorem interpolated_textEnd {verbatim : Bool} (hpair : verbatim = true → s.head? ≠ some '"') :
    interpolated ⟨verbatim, 0⟩ outer n ('"' :: s) = resume outer (n + 1) s :=
  interpolated_quote rfl fun h ↦
    have ⟨hverbatim, hhead⟩ := any_isTextPair_quote.1 h
    hpair hverbatim hhead

/-- A literal in a hole is passed over as a whole. -/
theorem interpolated_literal {next : Cursor} (hdepth : inner.depth ≠ 0)
    (hliteral : holeLiteral? n c s = some (.ok next)) :
    interpolated inner outer n (c :: s) = interpolated inner outer next.offset next.rest := by
  rw [interpolated_hole hdepth ?_ ?_ ?_, hliteral]
  · rintro rfl
    simp [holeLiteral?] at hliteral
  · rintro rfl
    simp [holeLiteral?] at hliteral
  · rintro s' rfl
    simp [holeLiteral?] at hliteral

/-- A literal in quotes may stand in a hole. -/
theorem holeLiteral?_quoted {quote : Char} {body t : List Char}
    (hquote : quote = '"' ∨ quote = '\'') (hbody : IsQuoted quote body) :
    holeLiteral? n quote (body ++ t) = some (.ok ⟨n + 1 + byteLength body, t⟩) := by
  rcases hquote with rfl | rfl
  · exact congrArg some (quoted_append (by decide) hbody _ _)
  · exact congrArg some (quoted_append (by decide) hbody _ _)

/-- A verbatim string may stand in a hole. -/
theorem holeLiteral?_verbatim {body t : List Char} (hbody : IsVerbatim body)
    (ht : t.head? ≠ some '"') :
    holeLiteral? n '@' ('"' :: (body ++ t)) = some (.ok ⟨n + 2 + byteLength body, t⟩) :=
  congrArg some (verbatim_append hbody _ ht)

/-- Any other character of a hole opens no literal. -/
theorem holeLiteral?_eq_none (hc : c ∉ ['{', '}', '"', '\''])
    (hsign : c = '@' ∨ c = '$' → s.head? ≠ some '"') : holeLiteral? n c s = none := by
  unfold holeLiteral?
  split
  · simp at hc
  · simp at hc
  · simp at hsign
  · rfl

/-- Any other character of a hole is passed. -/
theorem interpolated_other (hdepth : inner.depth ≠ 0) (hc : c ∉ ['{', '}', '"', '\''])
    (hsign : c = '@' ∨ c = '$' → s.head? ≠ some '"') :
    interpolated inner outer n (c :: s) = interpolated inner outer (n + c.utf8Size) s := by
  have hnone := holeLiteral?_eq_none (n := n) hc hsign
  rw [interpolated_hole hdepth ?_ ?_ ?_, hnone]
  · rintro rfl
    simp at hc
  · rintro rfl
    simp at hc
  · rintro s' rfl rfl
    simp at hsign

end

/-! ### Scans of stretches -/

/-- **A stretch is passed over**, up to the character that ends it. -/
theorem interpolated_stretch {part : Stretch} {s : List Char} (h : IsStretch part s)
    {frame : Interpolation} (hframe : frame.stretch = part) (outer : List Interpolation) (n : Nat)
    (t : List Char) :
    interpolated frame outer n (s ++ part.closer :: t) =
      interpolated frame outer (n + byteLength s) (part.closer :: t) := by
  have hhead {s : List Char} {c : Char} (t : List Char) :
      (s ++ c :: t).head? = (s ++ [c]).head? := by cases s <;> rfl
  have hne {s : List Char} {c d : Char} (hd : c ≠ d) (t : List Char) (hs : s.head? ≠ some d) :
      (s ++ c :: t).head? ≠ some d := by cases s <;> simp_all
  induction h generalizing frame outer n t with
  | textEnd => rfl
  | pair hpair _ ih =>
    obtain ⟨hdepth, rfl⟩ := Interpolation.text_of_stretch hframe
    rw [List.cons_append, List.cons_append, interpolated_pair hdepth hpair, ih hframe]
    simp only [Text.byteLength_cons, Nat.add_assoc]
  | @character _ c _ hquote hopen hline hpair _ ih =>
    obtain ⟨hdepth, rfl⟩ := Interpolation.text_of_stretch hframe
    rw [← hhead t, ← Bool.not_eq_true] at hpair
    have hkept : ¬(c = '\n' && !frame.verbatim) := by simpa using hline
    simp only [Stretch.closer] at ih ⊢
    rw [List.cons_append, interpolated_text hdepth hpair hquote hopen, if_neg hkept, ih hframe,
      Text.byteLength_cons, Nat.add_assoc]
  | insert _ hpair _ ihhole ih =>
    obtain ⟨hdepth, rfl⟩ := Interpolation.text_of_stretch hframe
    simp only [Stretch.closer] at ihhole ih ⊢
    rw [List.cons_append, List.append_assoc, List.cons_append,
      interpolated_insert hdepth (mt any_isTextPair_openBrace.1 (hne (by decide) _ hpair)),
      ihhole rfl, interpolated_leave hdepth, ih hframe]
    simp only [Text.byteLength_cons, Text.byteLength_append, ← Nat.add_assoc]
    rfl
  | holeEnd => rfl
  | group _ _ ihinside ih =>
    have hdepth := Interpolation.depth_ne_zero hframe
    simp only [Stretch.closer] at ihinside ih ⊢
    rw [List.cons_append, List.append_assoc, List.cons_append, interpolated_open hdepth,
      ihinside rfl, interpolated_leave rfl, ih hframe]
    simp only [Text.byteLength_cons, Text.byteLength_append, ← Nat.add_assoc]
    rfl
  | @quoted quote _ _ hquote hbody _ ih =>
    have hdepth := Interpolation.depth_ne_zero hframe
    have hsize : quote.utf8Size = 1 := by rcases hquote with rfl | rfl <;> rfl
    rw [List.cons_append, List.append_assoc,
      interpolated_literal hdepth (holeLiteral?_quoted hquote hbody), ih hframe]
    simp only [Text.byteLength_cons, Text.byteLength_append, ← Nat.add_assoc, hsize]
  | verbatim hbody hpair _ ih =>
    have hdepth := Interpolation.depth_ne_zero hframe
    have hbehind := hne (d := '"') (c := Stretch.closer .hole) (by decide) t hpair
    rw [List.cons_append, List.cons_append, List.append_assoc,
      interpolated_literal hdepth (holeLiteral?_verbatim hbody hbehind), ih hframe]
    simp only [Text.byteLength_cons, Text.byteLength_append, ← Nat.add_assoc]
    rfl
  | nested _ _ ihtext ih =>
    have hdepth := Interpolation.depth_ne_zero hframe
    simp only [Stretch.closer] at ihtext ih ⊢
    rw [List.cons_append, List.cons_append, List.append_assoc, List.cons_append,
      interpolated_nested hdepth, ihtext rfl, interpolated_textEnd (fun h ↦ Bool.noConfusion h),
      resume, ih hframe]
    simp only [Text.byteLength_cons, Text.byteLength_append, ← Nat.add_assoc]
    rfl
  | other hc hsign _ ih =>
    have hdepth := Interpolation.depth_ne_zero hframe
    rw [List.cons_append, interpolated_other hdepth hc fun h ↦ hne (by decide) _ (hsign h),
      ih hframe, Text.byteLength_cons, Nat.add_assoc]

/-! ### What is passed over

A scan may be in the middle of a string inside holes of other strings. What it passes over until it
ends is then no single stretch: it closes the innermost string, goes on in the hole around it, and
so on outward. -/

/-- The text closes the open strings, innermost first, and the rest stands behind all of them. -/
inductive Unwinds : List Interpolation → List Char → List Char → Prop
  | done {r : List Char} : Unwinds [] r r
  | text {verbatim : Bool} {frames : List Interpolation} {text later r : List Char}
      (htext : IsStretch (.text verbatim) text) (hpair : verbatim = true → later.head? ≠ some '"')
      (h : Unwinds frames later r) : Unwinds (⟨verbatim, 0⟩ :: frames) (text ++ '"' :: later) r
  | hole {verbatim : Bool} {depth : Nat} {frames : List Interpolation} {hole later r : List Char}
      (hhole : IsStretch .hole hole) (h : Unwinds (⟨verbatim, depth⟩ :: frames) later r) :
    Unwinds (⟨verbatim, depth + 1⟩ :: frames) (hole ++ '}' :: later) r

/-- What precedes the text of a string belongs to this text. -/
theorem Unwinds.append_text {verbatim : Bool} {frames : List Interpolation} {s r : List Char}
    (h : Unwinds (⟨verbatim, 0⟩ :: frames) s r) (front : List Char)
    (hfront : ∀ text later, s = text ++ '"' :: later → IsStretch (.text verbatim) text →
      IsStretch (.text verbatim) (front ++ text)) :
    Unwinds (⟨verbatim, 0⟩ :: frames) (front ++ s) r := by
  cases h with
  | text htext hpair h =>
    rw [← List.append_assoc]
    exact .text (hfront _ _ rfl htext) hpair h

/-- More may stand in a hole before what closes it. -/
theorem Unwinds.append_hole {verbatim : Bool} {depth : Nat} {frames : List Interpolation}
    {s r : List Char} (h : Unwinds (⟨verbatim, depth⟩ :: frames) s r) (hdepth : depth ≠ 0)
    (front : List Char)
    (hfront : ∀ hole later, s = hole ++ '}' :: later → IsStretch .hole hole →
      IsStretch .hole (front ++ hole)) :
    Unwinds (⟨verbatim, depth⟩ :: frames) (front ++ s) r := by
  cases h with
  | text => exact absurd rfl hdepth
  | hole hhole h =>
    rw [← List.append_assoc]
    exact .hole (hfront _ _ rfl hhole) h

/-- A literal that was read in a hole is one in quotes or a verbatim string. -/
theorem exists_of_holeLiteral? {n : Nat} {c : Char} {s : List Char} {next : Cursor}
    (h : holeLiteral? n c s = some (.ok next)) :
    (∃ body, (c = '"' ∨ c = '\'') ∧ IsQuoted c body ∧ s = body ++ next.rest) ∨
      ∃ body, c = '@' ∧ IsVerbatim body ∧ next.rest.head? ≠ some '"' ∧
        s = '"' :: (body ++ next.rest) := by
  unfold holeLiteral? at h
  split at h
  · obtain ⟨body, hbody, rfl⟩ := exists_of_quoted (Option.some.inj h)
    exact .inl ⟨body, .inl rfl, hbody, rfl⟩
  · obtain ⟨body, hbody, rfl⟩ := exists_of_quoted (Option.some.inj h)
    exact .inl ⟨body, .inr rfl, hbody, rfl⟩
  · obtain ⟨body, hbody, rfl, hnext⟩ := exists_of_verbatim (Option.some.inj h)
    exact .inr ⟨body, rfl, hbody, hnext, rfl⟩
  · cases h

theorem of_holeLiteral?_eq_none {n : Nat} {c : Char} {s : List Char}
    (h : holeLiteral? n c s = none) :
    c ≠ '"' ∧ c ≠ '\'' ∧ (c = '@' → s.head? ≠ some '"') := by
  refine ⟨?_, ?_, ?_⟩
  · rintro rfl
    simp [holeLiteral?] at h
  · rintro rfl
    simp [holeLiteral?] at h
  · rintro rfl hhead
    obtain ⟨s, rfl⟩ := List.head?_eq_some_iff.1 hhead
    simp [holeLiteral?] at h

/-- **A scan that ends has closed all strings that were open.** -/
theorem unwinds_of_interpolated {inner : Interpolation} {outer : List Interpolation} {n m : Nat}
    {s r : List Char} (h : interpolated inner outer n s = .ok ⟨m, r⟩) :
    Unwinds (inner :: outer) s r := by
  have hquote {verbatim : Bool} {s : List Char}
      (hpair : ¬s.head?.any (isTextPair verbatim '"') = true) :
      verbatim = true → s.head? ≠ some '"' := fun hverbatim hhead ↦
    hpair (any_isTextPair_quote.2 ⟨hverbatim, hhead⟩)
  have hfirst {s hole later : List Char} {c d : Char} (heq : s = hole ++ c :: later)
      (hhead : hole.head? = some d) : s.head? = some d := by
    rw [heq, List.head?_append, hhead]
    rfl
  fun_induction interpolated inner outer n s with
  | case1 => cases h
  | case2 inner outer n c s hdepth hpair ih =>
    obtain ⟨verbatim, depth⟩ := inner
    obtain rfl : depth = 0 := hdepth
    cases s with
    | nil => cases hpair
    | cons d s => exact (ih h).append_text [c, d] fun _ _ _ ↦ .pair hpair
  | case3 inner n s hdepth hpair =>
    obtain ⟨verbatim, depth⟩ := inner
    obtain rfl : depth = 0 := hdepth
    cases h
    exact @Unwinds.text _ _ [] _ _ .textEnd (hquote hpair) .done
  | case4 inner n s hdepth next outer hpair ih =>
    obtain ⟨verbatim, depth⟩ := inner
    obtain rfl : depth = 0 := hdepth
    exact @Unwinds.text _ _ [] _ _ .textEnd (hquote hpair) (ih h)
  | case5 inner outer n s hdepth hpair _ ih =>
    obtain ⟨verbatim, depth⟩ := inner
    obtain rfl : depth = 0 := hdepth
    cases ih h with
    | @hole _ _ _ hole later _ hhole h =>
      have hopen : hole.head? ≠ some '{' := fun hhead ↦
        hpair (any_isTextPair_openBrace.2 (hfirst rfl hhead))
      have hinsert := h.append_text ('{' :: (hole ++ ['}'])) fun text _ _ htext ↦ by
        simpa using IsStretch.insert hhole hopen htext
      simpa using hinsert
  | case6 => cases h
  | case7 inner outer n c s hdepth hpair hquote hopen hline ih =>
    obtain ⟨verbatim, depth⟩ := inner
    obtain rfl : depth = 0 := hdepth
    refine (ih h).append_text [c] fun text later heq ↦ ?_
    refine .character hquote hopen (by simpa using hline) ?_
    have hhead : s.head? = (text ++ ['"']).head? := by
      rw [heq]
      cases text <;> rfl
    rw [← hhead]
    exact Bool.eq_false_iff.2 hpair
  | case8 inner outer n hdepth s ih =>
    cases ih h with
    | @hole _ _ _ inside later _ hinside h =>
      have hgroup := h.append_hole hdepth ('{' :: (inside ++ ['}'])) fun hole _ _ hhole ↦ by
        simpa using IsStretch.group hinside hhole
      simpa using hgroup
  | case9 inner outer n hdepth s ih =>
    obtain ⟨verbatim, depth⟩ := inner
    obtain ⟨depth, rfl⟩ := Nat.exists_eq_succ_of_ne_zero hdepth
    exact @Unwinds.hole _ _ _ [] _ _ .holeEnd (ih h)
  | case10 inner outer n hdepth s ih =>
    cases ih h with
    | @text _ _ text later _ htext _ h =>
      have hnested := h.append_hole hdepth ('$' :: '"' :: (text ++ ['"']))
        fun hole _ _ hhole ↦ by simpa using IsStretch.nested htext hhole
      simpa using hnested
  | case11 inner outer n hdepth c s hopen hclose hdollar next hliteral hlt ih =>
    rcases exists_of_holeLiteral? hliteral with
      ⟨body, hc, hbody, rfl⟩ | ⟨body, rfl, hbody, hnext, rfl⟩
    · exact (ih h).append_hole hdepth (c :: body) fun _ _ _ ↦ .quoted hc hbody
    · refine (ih h).append_hole hdepth ('@' :: '"' :: body) fun hole later heq hhole ↦ ?_
      exact .verbatim hbody (fun hhead ↦ hnext (hfirst heq hhead)) hhole
  | case12 => cases h
  | case13 inner outer n hdepth c s hopen hclose hdollar hliteral ih =>
    obtain ⟨hquote, happostrophe, hat⟩ := of_holeLiteral?_eq_none hliteral
    have hc : c ∉ ['{', '}', '"', '\''] := by
      simpa using ⟨hopen, hclose, hquote, happostrophe⟩
    refine (ih h).append_hole hdepth [c] fun hole later heq ↦ .other hc ?_
    rintro (hsign | hsign) hhead
    · exact hat hsign (hfirst heq hhead)
    · obtain ⟨u, hu⟩ := List.head?_eq_some_iff.1 (hfirst heq hhead)
      exact hdollar u hsign hu

/-- **The texts of interpolated strings.** A scan of an interpolated string ends behind the quote
that closes it, and nowhere else. -/
theorem interpolated_eq_ok_iff {verbatim : Bool} {n m : Nat} {s r : List Char} :
    interpolated ⟨verbatim, 0⟩ [] n s = .ok ⟨m, r⟩ ↔
      ∃ text, IsStretch (.text verbatim) text ∧ (verbatim = true → r.head? ≠ some '"') ∧
        s = text ++ '"' :: r ∧ m = n + byteLength text + 1 := by
  have hsound {text : List Char} (htext : IsStretch (.text verbatim) text)
      (hpair : verbatim = true → r.head? ≠ some '"') :
      interpolated ⟨verbatim, 0⟩ [] n (text ++ '"' :: r) = .ok ⟨n + byteLength text + 1, r⟩ :=
    (interpolated_stretch htext rfl [] n r).trans (interpolated_textEnd hpair)
  constructor
  · intro h
    cases unwinds_of_interpolated h with
    | @text _ _ text later _ htext hpair hdone =>
      cases hdone with
      | done =>
        rw [hsound htext hpair] at h
        cases h
        exact ⟨text, htext, hpair, rfl, rfl⟩
  · rintro ⟨text, htext, hpair, rfl, rfl⟩
    exact hsound htext hpair

end Literal

end DoubleDispatch
