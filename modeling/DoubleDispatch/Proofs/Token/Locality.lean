import DoubleDispatch.Proofs.Token.Translation

/-!
# Tokens do not depend on what stands around them

A scanner that ends at a place of a text looks at no more than one character behind it. So if two
texts go on alike there (`LooksAlike`), it ends at the same place in both.

A text therefore has the same tokens up to any one of them, whatever stands there and looks alike
(`tokensFrom_congr`): up to a closing delimiter at its end, to an opening brace, or to a line break
in place of its end.
-/

namespace DoubleDispatch

open Text (byteLength)

namespace Cursor

/-- Where a text ends does not change when a prefix of it is passed over. -/
theorem Reaches.total {a b : Cursor} (h : a.Reaches b) :
    b.offset + byteLength b.rest = a.offset + byteLength a.rest := by
  obtain ⟨passed, hrest, hoffset⟩ := h
  rw [hrest, hoffset, Text.byteLength_append, Nat.add_assoc]

/-- Who has at least a part of a text ahead has what stands before this part, from some place on. -/
theorem Reaches.exists_eq_append {n : Nat} {s t : List Char} {b : Cursor}
    (h : Reaches ⟨n, s ++ t⟩ b) (hle : t.length ≤ b.rest.length) : ∃ r, b.rest = r ++ t := by
  obtain ⟨passed, hrest, -⟩ := h
  exact List.suffix_of_suffix_length_le (List.suffix_append s t) ⟨passed, hrest.symm⟩ hle
    |>.imp fun _ ↦ Eq.symm

/-- Who stands no later than where a part of a text starts has this part ahead. -/
theorem Reaches.exists_eq_append_of_le {n : Nat} {s t : List Char} {b : Cursor}
    (h : Reaches ⟨n, s ++ t⟩ b) (hle : b.offset ≤ n + byteLength s) : ∃ r, b.rest = r ++ t := by
  refine h.exists_eq_append (Nat.le_of_not_lt fun hlt ↦ ?_)
  have htotal : b.offset + byteLength b.rest = n + byteLength (s ++ t) := h.total
  obtain ⟨passed, hrest, -⟩ := h
  obtain ⟨w, hw⟩ := List.suffix_of_suffix_length_le ⟨passed, hrest.symm⟩ (List.suffix_append s t)
    (Nat.le_of_lt hlt)
  rw [← hw, Text.byteLength_append, Text.byteLength_append] at htotal
  have hw' : byteLength w = 0 := by omega
  obtain rfl := Text.eq_nil_of_byteLength_eq_zero hw'
  exact Nat.lt_irrefl _ (hw ▸ hlt)

end Cursor

/-- Two texts that no lexeme before them can tell apart: they start with the same character, which
is neither a dot nor a dollar sign, or the first is empty, and the second is too or starts a
line. -/
inductive LooksAlike : List Char → List Char → Prop
  | cons {c : Char} (noDot : c ≠ '.') (noDollar : c ≠ '$') (s s' : List Char) :
    LooksAlike (c :: s) (c :: s')
  | nil : LooksAlike [] []
  | lineBreak (s : List Char) : LooksAlike [] ('\n' :: s)

namespace LooksAlike

variable {s t t' : List Char} {d : Char}

/-- What a scanner finds ahead is the same, unless it looks for a line break. -/
theorem any_head? (ht : LooksAlike t t') {p : Char → Bool} (hp : p '\n' = false) (s : List Char) :
    (s ++ t').head?.any p = (s ++ t).head?.any p := by
  cases s with
  | cons c s => rfl
  | nil =>
    cases ht with
    | cons => rfl
    | nil => rfl
    | lineBreak => exact hp

/-- Unless nothing is ahead, the next character is the same. -/
theorem head?_eq (ht : LooksAlike t t') (hne : s ++ t ≠ []) :
    (s ++ t').head? = (s ++ t).head? := by
  cases s with
  | cons c s => rfl
  | nil =>
    cases ht with
    | cons => rfl
    | nil => rfl
    | lineBreak => exact absurd rfl hne

theorem ne_cons (ht : LooksAlike t t') (hd : d ≠ '\n') (h : ∀ u, s ++ t ≠ d :: u) :
    ∀ u, s ++ t' ≠ d :: u := by
  rintro u hu
  cases s with
  | cons c s =>
    obtain ⟨rfl, -⟩ := List.cons.inj hu
    exact h _ rfl
  | nil =>
    cases ht with
    | cons =>
      obtain ⟨rfl, -⟩ := List.cons.inj hu
      exact h _ rfl
    | nil => cases hu
    | lineBreak =>
      obtain ⟨rfl, -⟩ := List.cons.inj hu
      exact hd rfl

end LooksAlike

/-! ### Scanners -/

namespace Literal

variable {n m : Nat} {s t t' r : List Char}

/-- What has passed the start of a text does not have all of it ahead. -/
theorem false_of_length_le {c : Char} {u : List Char} (hu : t = c :: u)
    (hle : (r ++ t).length ≤ u.length) : False := by
  rw [hu, List.length_append, List.length_cons] at hle
  omega

/-- A character that is passed before the end of a text is one of this text. -/
theorem exists_eq_cons {c : Char} {u : List Char} (hu : s ++ t = c :: u)
    (hle : (r ++ t).length ≤ u.length) : ∃ s', s = c :: s' ∧ s' ++ t = u := by
  rcases List.append_eq_cons_iff.1 hu with ⟨rfl, ht⟩ | ⟨s', rfl, rfl⟩
  · exact (false_of_length_le ht hle).elim
  · exact ⟨s', rfl, rfl⟩

/-- A run of characters other than line breaks ends at the same place. -/
theorem skipWhile_congr (ht : LooksAlike t t') {p : Char → Bool} (hp : p '\n' = false)
    (h : skipWhile p n (s ++ t) = ⟨m, r ++ t⟩) :
    skipWhile p n (s ++ t') = ⟨m, r ++ t'⟩ := by
  induction s generalizing n with
  | nil =>
    have hstays {u : List Char} (hu : u.head?.any p = false) (n : Nat) :
        skipWhile p n u = ⟨n, u⟩ := by
      cases u with
      | nil => rfl
      | cons c u => exact if_neg (by simpa using hu)
    have hany : t.head?.any p = false := by
      cases t with
      | nil => rfl
      | cons c u =>
        rw [Bool.eq_false_iff]
        intro hc
        have hc : p c = true := hc
        rw [List.nil_append, skipWhile, if_pos hc] at h
        have hle := length_skipWhile_le p (n + c.utf8Size) u
        rw [h] at hle
        exact false_of_length_le rfl hle
    rw [List.nil_append, hstays hany] at h
    obtain ⟨rfl, hr⟩ := Cursor.mk.inj h
    obtain rfl : r = [] := List.append_cancel_right (hr.symm.trans (List.nil_append t).symm)
    exact hstays ((ht.any_head? hp []).trans hany) _
  | cons c s ih =>
    rw [List.cons_append, skipWhile] at h ⊢
    split at h
    next hc => rw [if_pos hc, ih h]
    next hc =>
      obtain ⟨rfl, hr⟩ := Cursor.mk.inj h
      obtain rfl : c :: s = r := List.append_cancel_right hr
      rw [if_neg hc]
      rfl

theorem blockComment_congr (ht : LooksAlike t t')
    (h : blockComment n (s ++ t) = .ok ⟨m, r ++ t⟩) :
    blockComment n (s ++ t') = .ok ⟨m, r ++ t'⟩ := by
  generalize hx : s ++ t = x at h
  fun_induction blockComment n x generalizing s with
  | case1 => cases h
  | case2 n u =>
    cases h
    obtain rfl : s = '*' :: '/' :: r := List.append_cancel_right hx
    rfl
  | case3 n c u hc ih =>
    obtain ⟨s, rfl, rfl⟩ := exists_eq_cons hx (length_blockComment_le h)
    rw [List.cons_append, blockComment, ih rfl h]
    rintro u rfl hu
    exact ht.ne_cons (by decide) (fun u ↦ hc u rfl) u hu

/-- A quoted literal ends at the same place, whatever stands behind it. -/
theorem quoted_congr {quote : Char} {fault : LexicalFault}
    (h : quoted quote fault n (s ++ t) = .ok ⟨m, r ++ t⟩) :
    quoted quote fault n (s ++ t') = .ok ⟨m, r ++ t'⟩ := by
  generalize hx : s ++ t = x at h
  fun_induction quoted quote fault n x generalizing s with
  | case1 => cases h
  | case2 => cases h
  | case3 n c u ih =>
    obtain ⟨s, rfl, hu⟩ := exists_eq_cons hx (Nat.le_succ_of_le (length_quoted_le h))
    obtain ⟨s, rfl, rfl⟩ := exists_eq_cons hu (length_quoted_le h)
    rw [List.cons_append, List.cons_append, quoted, ih rfl h]
  | case4 n u hlast hpair =>
    cases h
    obtain rfl : s = quote :: r := List.append_cancel_right hx
    rw [List.cons_append, quoted_cons (ne_backslash hlast hpair), if_pos rfl]
  | case5 => cases h
  | case6 n c u hlast hpair hquote hline ih =>
    obtain ⟨s, rfl, rfl⟩ := exists_eq_cons hx (length_quoted_le h)
    rw [List.cons_append, quoted_cons (ne_backslash hlast hpair), if_neg hquote, if_neg hline,
      ih rfl h]

/-- A verbatim string ends at the same place. -/
theorem verbatim_congr (ht : LooksAlike t t') (h : verbatim n (s ++ t) = .ok ⟨m, r ++ t⟩) :
    verbatim n (s ++ t') = .ok ⟨m, r ++ t'⟩ := by
  generalize hx : s ++ t = x at h
  fun_induction verbatim n x generalizing s with
  | case1 => cases h
  | case2 n u ih =>
    obtain ⟨s, rfl, hu⟩ := exists_eq_cons hx (Nat.le_succ_of_le (length_verbatim_le h))
    obtain ⟨s, rfl, rfl⟩ := exists_eq_cons hu (length_verbatim_le h)
    rw [List.cons_append, List.cons_append, verbatim, ih rfl h]
  | case3 n u hu =>
    cases h
    obtain rfl : s = '"' :: r := List.append_cancel_right hx
    rw [List.cons_append, verbatim]
    exact ht.ne_cons (by decide) hu
  | case4 n c u hu hc ih =>
    obtain ⟨s, rfl, rfl⟩ := exists_eq_cons hx (length_verbatim_le h)
    rw [List.cons_append, verbatim_cons hc, ih rfl h]

/-- A raw string ends at the same place. -/
theorem raw_congr {quotes run : Nat} (ht : LooksAlike t t')
    (h : raw quotes run n (s ++ t) = .ok ⟨m, r ++ t⟩) :
    raw quotes run n (s ++ t') = .ok ⟨m, r ++ t'⟩ := by
  induction s generalizing run n with
  | nil =>
    -- The string ends here, so nothing ahead is taken, whichever text it is.
    obtain ⟨hquotes, hhead, rfl, rfl⟩ : quotes ≤ run ∧ t.head?.any (· == '"') = false ∧ n = m ∧
        [] = r := by
      cases t with
      | nil =>
        rw [List.append_nil, List.append_nil, raw] at h
        split at h
        next hquotes => cases h; exact ⟨hquotes, rfl, rfl, rfl⟩
        next => cases h
      | cons c u =>
        rw [List.nil_append, raw] at h
        split at h
        next => exact (false_of_length_le rfl (length_raw_le h)).elim
        next hc =>
          split at h
          next hquotes =>
            obtain ⟨rfl, hr⟩ := Cursor.mk.inj (Except.ok.inj h)
            exact ⟨hquotes, by simpa using hc, rfl, List.append_cancel_right hr⟩
          next => exact (false_of_length_le rfl (length_raw_le h)).elim
    have hhead' := (ht.any_head? (p := (· == '"')) (by decide) []).trans hhead
    cases t' with
    | nil => exact if_pos hquotes
    | cons c u =>
      have hc : c ≠ '"' := by simpa using hhead'
      rw [List.nil_append, raw, if_neg hc, if_pos hquotes]
  | cons c s ih =>
    rw [List.cons_append, raw] at h ⊢
    split at h
    next hc => rw [if_pos hc, ih h]
    next hc =>
      rw [if_neg hc]
      split at h
      next hrun =>
        obtain ⟨rfl, hr⟩ := Cursor.mk.inj (Except.ok.inj h)
        obtain rfl : c :: s = r := List.append_cancel_right hr
        rw [if_pos hrun]
        rfl
      next hrun => rw [if_neg hrun, ih h]

section Interpolated

variable {inner : Interpolation} {outer : List Interpolation}

theorem holeLiteral?_congr (ht : LooksAlike t t') {c : Char}
    (h : holeLiteral? n c (s ++ t) = some (.ok ⟨m, r ++ t⟩)) :
    holeLiteral? n c (s ++ t') = some (.ok ⟨m, r ++ t'⟩) := by
  generalize hx : s ++ t = x at h
  unfold holeLiteral? at h
  split at h
  next =>
    subst hx
    rw [holeLiteral?, string, quoted_congr (Option.some.inj h)]
  next =>
    subst hx
    rw [holeLiteral?, character, quoted_congr (Option.some.inj h)]
  next u =>
    obtain ⟨s, rfl, rfl⟩ := exists_eq_cons hx (length_verbatim_le (Option.some.inj h))
    rw [List.cons_append, holeLiteral?,
      verbatim_congr ht (Option.some.inj h)]
  next => cases h

theorem holeLiteral?_append (ht : LooksAlike t t') {c : Char}
    (h : holeLiteral? n c (s ++ t) = none) : holeLiteral? n c (s ++ t') = none := by
  unfold holeLiteral? at h
  split at h
  · cases h
  · cases h
  · cases h
  next hstring hcharacter hverbatim =>
    rw [holeLiteral?]
    · exact hstring
    · exact hcharacter
    · exact fun u hc hu ↦ ht.ne_cons (by decide) (hverbatim · hc) u hu

/-- An interpolated text ends at the same place. -/
theorem interpolated_congr (ht : LooksAlike t t')
    (h : interpolated inner outer n (s ++ t) = .ok ⟨m, r ++ t⟩) :
    interpolated inner outer n (s ++ t') = .ok ⟨m, r ++ t'⟩ := by
  -- What a scan goes on with is not empty, so one character more is looked at alike.
  have hgoes {s : List Char} {n : Nat} {inner : Interpolation} {outer : List Interpolation}
      (h : interpolated inner outer n (s ++ t) = .ok ⟨m, r ++ t⟩) :
      (s ++ t').head? = (s ++ t).head? := by
    refine ht.head?_eq fun hnil ↦ ?_
    rw [hnil, interpolated] at h
    cases h
  generalize hx : s ++ t = x at h
  fun_induction interpolated inner outer n x generalizing s with
  | case1 => cases h
  | case2 inner outer n c u hdepth hpair ih =>
    have hle := length_interpolated_le h
    rw [List.length_drop] at hle
    obtain ⟨s, rfl, rfl⟩ := exists_eq_cons hx (Nat.le_trans hle (Nat.sub_le _ _))
    obtain _ | ⟨d, s⟩ := s
    · obtain _ | ⟨d, u⟩ := t
      · cases hpair
      · exact (false_of_length_le rfl hle).elim
    rw [List.cons_append, List.cons_append, interpolated_pair hdepth hpair]
    exact ih rfl h
  | case3 inner n u hdepth hpair =>
    cases h
    obtain rfl : s = '"' :: r := List.append_cancel_right hx
    have hlook := ht.any_head? (p := isTextPair inner.verbatim '"')
      (by cases inner.verbatim <;> decide) r
    rw [List.cons_append, interpolated_quote hdepth (by rwa [hlook])]
    rfl
  | case4 inner n u hdepth next outer hpair ih =>
    obtain ⟨s, rfl, rfl⟩ := exists_eq_cons hx (length_interpolated_le h)
    rw [List.cons_append, interpolated_quote hdepth (by rwa [hgoes h])]
    exact ih rfl h
  | case5 inner outer n u hdepth hpair hquote ih =>
    obtain ⟨s, rfl, rfl⟩ := exists_eq_cons hx (length_interpolated_le h)
    rw [List.cons_append, interpolated_insert hdepth (by rwa [hgoes h]), ih rfl h]
  | case6 => cases h
  | case7 inner outer n c u hdepth hpair hquote hopen hline ih =>
    obtain ⟨s, rfl, rfl⟩ := exists_eq_cons hx (length_interpolated_le h)
    rw [List.cons_append, interpolated_text hdepth (by rwa [hgoes h]) hquote hopen, if_neg hline,
      ih rfl h]
  | case8 inner outer n hdepth u ih =>
    obtain ⟨s, rfl, rfl⟩ := exists_eq_cons hx (length_interpolated_le h)
    rw [List.cons_append, interpolated_open hdepth, ih rfl h]
  | case9 inner outer n hdepth u ih =>
    obtain ⟨s, rfl, rfl⟩ := exists_eq_cons hx (length_interpolated_le h)
    rw [List.cons_append, interpolated_close hdepth, ih rfl h]
  | case10 inner outer n hdepth u ih =>
    have hle := length_interpolated_le h
    obtain ⟨s, rfl, hu⟩ := exists_eq_cons hx (Nat.le_succ_of_le hle)
    obtain ⟨s, rfl, rfl⟩ := exists_eq_cons hu hle
    rw [List.cons_append, List.cons_append, interpolated_nested hdepth, ih rfl h]
  | case11 inner outer n hdepth c u hopen hclose hdollar next hliteral hlt ih =>
    have hle := length_interpolated_le h
    obtain ⟨s, rfl, rfl⟩ := exists_eq_cons hx (Nat.le_trans hle hlt)
    -- The literal in the hole ends before the text that is still ahead at the end.
    have hreach : Cursor.Reaches ⟨n, (c :: s) ++ t⟩ next := ahead_holeLiteral? hliteral
    rw [List.length_append] at hle
    obtain ⟨w, hw⟩ := hreach.exists_eq_append (Nat.le_trans (Nat.le_add_left _ _) hle)
    obtain ⟨offset, rest⟩ := next
    obtain rfl : rest = w ++ t := hw
    rw [List.cons_append, interpolated_hole hdepth hopen hclose, holeLiteral?_congr ht hliteral]
    · exact ih rfl h
    · exact fun u hc ↦ ht.ne_cons (by decide) (fun u ↦ hdollar u hc) u
  | case12 => cases h
  | case13 inner outer n hdepth c u hopen hclose hdollar hliteral ih =>
    obtain ⟨s, rfl, rfl⟩ := exists_eq_cons hx (length_interpolated_le h)
    rw [List.cons_append, interpolated_hole hdepth hopen hclose, holeLiteral?_append ht hliteral]
    · show interpolated _ _ _ _ = _
      exact ih rfl h
    · exact fun u hc ↦ ht.ne_cons (by decide) (fun u ↦ hdollar u hc) u

end Interpolated

theorem number_congr (ht : LooksAlike t t') (h : number n (s ++ t) = ⟨m, r ++ t⟩) :
    number n (s ++ t') = ⟨m, r ++ t'⟩ := by
  have hdigit (s : List Char) :
      (s ++ t').head?.any Char.isDigit = (s ++ t).head?.any Char.isDigit :=
    ht.any_head? (by decide) s
  induction s generalizing n with
  | nil =>
    cases ht with
    | @cons c noDot noDollar u u' =>
      rw [List.nil_append, number] at h ⊢
      have hdot : (c == '.') = false := by simpa using noDot
      simp only [hdot, Bool.false_and, Bool.or_false] at h ⊢
      split at h
      next =>
        have hle := length_number_le (n + 1) u
        rw [h] at hle
        exact (false_of_length_le rfl hle).elim
      next hc =>
        obtain ⟨rfl, hr⟩ := Cursor.mk.inj h
        obtain rfl : [] = r := List.append_cancel_right hr
        rw [if_neg hc]
        rfl
    | nil =>
      obtain ⟨rfl, hr⟩ := Cursor.mk.inj h
      obtain rfl : [] = r := List.append_cancel_right hr
      rfl
    | lineBreak =>
      obtain ⟨rfl, hr⟩ := Cursor.mk.inj h
      obtain rfl : [] = r := List.append_cancel_right hr
      rfl
  | cons c s ih =>
    rw [List.cons_append, number] at h ⊢
    rw [hdigit]
    split at h
    next hc => rw [if_pos hc, ih h]
    next hc =>
      obtain ⟨rfl, hr⟩ := Cursor.mk.inj h
      obtain rfl : c :: s = r := List.append_cancel_right hr
      rw [if_neg hc]
      rfl

/-- A run of one character that ends before the end of a text has the same length and the same text
behind it, whatever looks alike behind the text. -/
theorem runLength_congr (ht : LooksAlike t t') {c : Char} (hc : c ≠ '\n')
    (h : (s ++ t).drop (runLength c (s ++ t)) = r ++ t) :
    runLength c (s ++ t') = runLength c (s ++ t) ∧
      (s ++ t').drop (runLength c (s ++ t)) = r ++ t' := by
  induction s with
  | nil =>
    have hhead : t.head? ≠ some c := by
      intro hhead
      obtain ⟨u, rfl⟩ := List.head?_eq_some_iff.1 hhead
      rw [List.nil_append, runLength_cons_self, List.drop_succ_cons] at h
      exact false_of_length_le rfl (h ▸ (List.drop_sublist _ _).length_le)
    have hhead' : t'.head? ≠ some c := by
      cases ht with
      | cons => exact hhead
      | nil => exact hhead
      | lineBreak => exact fun heq ↦ hc (Option.some.inj heq).symm
    rw [List.nil_append, runLength_eq_zero hhead] at h
    obtain rfl : [] = r := List.append_cancel_right h
    rw [List.nil_append, List.nil_append, runLength_eq_zero hhead, runLength_eq_zero hhead']
    exact ⟨rfl, rfl⟩
  | cons d s ih =>
    rw [List.cons_append] at h ⊢
    rw [List.cons_append]
    by_cases hd : d = c
    · subst hd
      rw [runLength_cons_self, List.drop_succ_cons] at h
      obtain ⟨hrun, hdrop⟩ := ih h
      rw [runLength_cons_self, runLength_cons_self, hrun, List.drop_succ_cons]
      exact ⟨rfl, hdrop⟩
    · rw [runLength_cons_of_ne hd] at h
      obtain rfl : d :: s = r := List.append_cancel_right h
      rw [runLength_cons_of_ne hd, runLength_cons_of_ne hd]
      exact ⟨rfl, rfl⟩

end Literal

namespace Lexer

variable {n m : Nat} {s t t' r : List Char}

/-- Behind a run of one character there is what is still ahead later. -/
theorem exists_drop_runLength_eq {c : Char} (hc : c.toNat < 128)
    (hle : (r ++ t).length ≤ ((s ++ t).drop (Literal.runLength c (s ++ t))).length) :
    ∃ w, (s ++ t).drop (Literal.runLength c (s ++ t)) = w ++ t := by
  rw [List.length_append] at hle
  exact (Cursor.Reaches.run hc 0 (s ++ t)).exists_eq_append (Nat.le_trans (Nat.le_add_left _ _) hle)

theorem stringFrom_congr (ht : LooksAlike t t')
    (h : stringFrom n ('"' :: s ++ t) = .ok ⟨m, r ++ t⟩) :
    stringFrom n ('"' :: s ++ t') = .ok ⟨m, r ++ t'⟩ := by
  have hone {u : List Char} (hthree : ¬3 ≤ Literal.runLength '"' ('"' :: u))
      (htwo : Literal.runLength '"' ('"' :: u) ≠ 2) : Literal.runLength '"' ('"' :: u) = 1 := by
    rw [Literal.runLength_cons_self] at hthree htwo ⊢
    omega
  have hle : (r ++ t).length ≤
      (('"' :: s ++ t).drop (Literal.runLength '"' ('"' :: s ++ t))).length := by
    simp only [stringFrom] at h
    split at h
    · exact Literal.length_raw_le h
    next hthree =>
      split at h
      · exact Nat.le_of_eq (congrArg List.length (Cursor.mk.inj (Except.ok.inj h)).2).symm
      next htwo =>
        have hrun : Literal.runLength '"' ('"' :: s ++ t) = 1 := hone hthree htwo
        rw [hrun]
        exact Literal.length_quoted_le h
  obtain ⟨w, hw⟩ := exists_drop_runLength_eq (by decide) hle
  obtain ⟨hrun, hdrop⟩ := Literal.runLength_congr ht (by decide) hw
  simp only [stringFrom, hrun, hdrop, hw] at h ⊢
  split at h
  next hthree => rw [if_pos hthree, Literal.raw_congr ht h]
  next hthree =>
    rw [if_neg hthree]
    split at h
    next htwo =>
      obtain ⟨rfl, hr⟩ := Cursor.mk.inj (Except.ok.inj h)
      obtain rfl : w = r := List.append_cancel_right hr
      rw [if_pos htwo]
    next htwo =>
      rw [if_neg htwo]
      exact Literal.quoted_congr h

/-- A string that opens with one quote, or is empty, ends behind the quotes that it starts with. -/
theorem length_interpolated_le_drop {next : Cursor}
    (h : Literal.interpolated ⟨false, 0⟩ [] n s = .ok next)
    (hquotes : ¬3 ≤ Literal.runLength '"' ('"' :: s)) :
    next.rest.length ≤ (('"' :: s).drop (Literal.runLength '"' ('"' :: s))).length := by
  rw [Literal.runLength_cons_self, List.drop_succ_cons]
  obtain _ | ⟨c, u⟩ := s
  · rw [Literal.interpolated] at h
    cases h
  by_cases hc : c = '"'
  · subst hc
    rw [Literal.runLength_cons_self, Literal.runLength_cons_self] at hquotes
    rw [Literal.runLength_cons_self, show Literal.runLength '"' u = 0 by omega]
    have hempty : Literal.interpolated ⟨false, 0⟩ [] n ('"' :: u) = .ok ⟨n + 1, u⟩ :=
      Literal.interpolated_quote rfl (by simp [Literal.any_isTextPair_quote])
    rw [hempty] at h
    cases h
    exact Nat.le_refl _
  · rw [Literal.runLength_cons_of_ne hc]
    exact Literal.length_interpolated_le h

theorem dollarString_congr (ht : LooksAlike t t') (h : dollarString n (s ++ t) = .ok ⟨m, r ++ t⟩) :
    dollarString n (s ++ t') = .ok ⟨m, r ++ t'⟩ := by
  have hle : (r ++ t).length ≤
      ((s ++ t).drop (Literal.runLength '$' (s ++ t))).length := by
    simp only [dollarString] at h
    split at h
    next u hu =>
      rw [hu]
      exact Nat.le_succ_of_le (Nat.le_succ_of_le (Literal.length_interpolated_le h))
    next u hu =>
      rw [hu]
      split at h
      · exact Nat.le_trans (Literal.length_raw_le h) (List.drop_sublist _ _).length_le
      · exact Nat.le_succ_of_le (Literal.length_interpolated_le h)
    next => cases h
  obtain ⟨w, hw⟩ := exists_drop_runLength_eq (by decide) hle
  obtain ⟨hrun, hdrop⟩ := Literal.runLength_congr ht (by decide) hw
  simp only [dollarString, hrun, hdrop, hw] at h ⊢
  split at h
  next u hu =>
    have hle : (r ++ t).length ≤ u.length := Literal.length_interpolated_le h
    obtain ⟨w, rfl, hv⟩ := Literal.exists_eq_cons hu (Nat.le_succ_of_le hle)
    obtain ⟨w, rfl, rfl⟩ := Literal.exists_eq_cons hv hle
    simp only [List.cons_append]
    rw [Literal.interpolated_congr ht h]
  next u hu =>
    have hshort : (r ++ t).length ≤ u.length := by
      split at h
      next hthree =>
        have hle : (r ++ t).length ≤ _ := Literal.length_raw_le h
        rw [List.length_drop, List.length_cons] at hle
        omega
      next => exact Literal.length_interpolated_le h
    obtain ⟨w, rfl, rfl⟩ := Literal.exists_eq_cons hu hshort
    -- The quotes end before what is still ahead at the end.
    have hle : (r ++ t).length ≤
        (('"' :: w ++ t).drop (Literal.runLength '"' ('"' :: w ++ t))).length := by
      rw [← List.cons_append] at h
      split at h
      next hthree => exact Literal.length_raw_le h
      next hthree => exact length_interpolated_le_drop h hthree
    obtain ⟨v, hv⟩ := exists_drop_runLength_eq (by decide) hle
    obtain ⟨hquotes, hbehind⟩ := Literal.runLength_congr ht (by decide) hv
    simp only [List.cons_append] at h hv hquotes hbehind ⊢
    rw [hquotes, hbehind]
    split at h
    next hthree =>
      rw [hv] at h
      rw [if_pos hthree, Literal.raw_congr ht h]
    next hthree =>
      rw [if_neg hthree, Literal.interpolated_congr ht h]
  next => cases h

/-! ### Lexemes -/

/-- No comment, string, character or double colon starts with `c` before `s`. -/
structure IsPlain (c : Char) (s : List Char) : Prop where
  line : ∀ s', c = '/' → s ≠ '/' :: s'
  block : ∀ s', c = '/' → s ≠ '*' :: s'
  quote : c ≠ '"'
  verbatim : ∀ s', c = '@' → s ≠ '"' :: s'
  interpolated : ∀ s', c = '@' → s ≠ '$' :: '"' :: s'
  dollar : c ≠ '$'
  apostrophe : c ≠ '\''
  colon : ∀ s', c = ':' → s ≠ ':' :: s'

/-- The step over a lexeme that is a number, an identifier or a single character. -/
def plainLexeme (n : Nat) (c : Char) (s : List Char) : Step :=
  if c.isDigit then literal (Literal.number (n + 1) s)
  else if Text.startsIdentifier c then identifier n (c :: s)
  else if c = '@' && s.head?.any Text.startsIdentifier then identifier (n + 1) s
  else ⟨some (punctuation c), ⟨n + c.utf8Size, s⟩, false⟩

/-- A character that begins no literal and no comment is read by the plain branch. -/
theorem lexeme_of_isPlain {c : Char} (h : IsPlain c s) :
    lexeme n c s = .ok (plainLexeme n c s) := by
  rw [lexeme]
  · simp only [plainLexeme]
    split
    · rfl
    · split
      · rfl
      · split <;> rfl
  · exact h.quote
  · exact h.dollar
  · exact h.apostrophe
  · exact h.line
  · exact h.block
  · exact h.verbatim
  · exact h.interpolated
  · exact h.colon

theorem IsPlain.congr {c : Char} (ht : LooksAlike t t') (h : IsPlain c (s ++ t)) :
    IsPlain c (s ++ t') where
  line _ hc := ht.ne_cons (by decide) (h.line · hc) _
  block _ hc := ht.ne_cons (by decide) (h.block · hc) _
  quote := h.quote
  verbatim _ hc := ht.ne_cons (by decide) (h.verbatim · hc) _
  interpolated u hc hu := by
    obtain _ | ⟨d, s⟩ := s
    · cases ht with
      | cons _ noDollar => exact noDollar (List.cons.inj hu).1
      | nil => cases hu
      | lineBreak => cases hu
    · obtain ⟨rfl, hv⟩ := List.cons.inj hu
      exact ht.ne_cons (by decide) (fun u heq ↦ h.interpolated u hc (congrArg _ heq)) _ hv
  dollar := h.dollar
  apostrophe := h.apostrophe
  colon _ hc := ht.ne_cons (by decide) (h.colon · hc) _

theorem identifier_congr (ht : LooksAlike t t') (h : (identifier n (s ++ t)).next = ⟨m, r ++ t⟩) :
    identifier n (s ++ t') = { identifier n (s ++ t) with next := ⟨m, r ++ t'⟩ } := by
  rw [identifier] at h
  have h' := Literal.skipWhile_congr ht (by decide) h
  -- What was read is what stands before what is left, in both texts.
  have htake {u : List Char}
      (h : Literal.skipWhile Text.continuesIdentifier n (s ++ u) = ⟨m, r ++ u⟩) :
      (s ++ u).takeWhile Text.continuesIdentifier ++ r = s := by
    rw [Literal.skipWhile_eq] at h
    have happend := List.takeWhile_append_dropWhile (p := Text.continuesIdentifier) (l := s ++ u)
    rw [(Cursor.mk.inj h).2, ← List.append_assoc] at happend
    exact List.append_cancel_right happend
  rw [identifier, identifier, h', List.append_cancel_right ((htake h').trans (htake h).symm)]

theorem plainLexeme_congr (ht : LooksAlike t t') {c : Char}
    (h : (plainLexeme n c (s ++ t)).next = ⟨m, r ++ t⟩) :
    plainLexeme n c (s ++ t') = { plainLexeme n c (s ++ t) with next := ⟨m, r ++ t'⟩ } := by
  unfold plainLexeme at h ⊢
  rw [ht.any_head? (by decide)]
  split at h
  next hc =>
    rw [if_pos hc, if_pos hc, literal, Literal.number_congr ht h]
    rfl
  next hc =>
    rw [if_neg hc, if_neg hc]
    split at h
    next hc =>
      rw [if_pos hc, if_pos hc]
      exact identifier_congr ht (s := c :: s) h
    next hc =>
      rw [if_neg hc, if_neg hc]
      split at h
      next hc =>
        rw [if_pos hc, if_pos hc]
        exact identifier_congr ht h
      next hc =>
        obtain ⟨rfl, hr⟩ := Cursor.mk.inj h
        obtain rfl : s = r := List.append_cancel_right hr
        rw [if_neg hc, if_neg hc]

/-- A lexeme that one scan passes over is found in both texts if its scan is. -/
theorem map_congr {kind? : Option TokenKind} {st : Step} {scan scan' : Scan}
    (hscan : scan = .ok ⟨m, r ++ t⟩ → scan' = .ok ⟨m, r ++ t'⟩)
    (h : (⟨kind?, ·, false⟩) <$> scan = .ok st) (hst : st.next = ⟨m, r ++ t⟩) :
    (⟨kind?, ·, false⟩) <$> scan' = .ok { st with next := ⟨m, r ++ t'⟩ } := by
  obtain ⟨next, rfl, rfl⟩ := eq_ok_of_map_eq_ok h
  rw [hscan (congrArg _ hst)]
  rfl

/-- Each branch of the lexer takes the same token. -/
theorem lexeme_congr (ht : LooksAlike t t') {c : Char} {st : Step}
    (h : lexeme n c (s ++ t) = .ok st) (hst : st.next = ⟨m, r ++ t⟩) :
    lexeme n c (s ++ t') = .ok { st with next := ⟨m, r ++ t'⟩ } := by
  have hlexeme := h
  have hrest : st.next.rest = r ++ t := congrArg Cursor.rest hst
  generalize hx : s ++ t = x at h
  unfold lexeme at h
  split at h
  next u =>
    cases h
    have hle := Literal.length_skipWhile_le (· != '\n') (n + 2) u
    obtain ⟨s, rfl, rfl⟩ := Literal.exists_eq_cons hx (hrest ▸ hle)
    rw [List.cons_append, lexeme, skipLine, Literal.skipWhile_congr ht (by decide) hst]
    rfl
  next u =>
    obtain ⟨next, hscan, rfl⟩ := eq_ok_of_map_eq_ok h
    have hle := Literal.length_blockComment_le hscan
    obtain ⟨s, rfl, rfl⟩ := Literal.exists_eq_cons hx (hrest ▸ hle)
    exact map_congr (Literal.blockComment_congr ht) h hst
  next u =>
    subst hx
    rw [lexeme]
    exact map_congr (stringFrom_congr ht) h hst
  next u =>
    obtain ⟨next, hscan, rfl⟩ := eq_ok_of_map_eq_ok h
    have hle := Literal.length_verbatim_le hscan
    obtain ⟨s, rfl, rfl⟩ := Literal.exists_eq_cons hx (hrest ▸ hle)
    exact map_congr (Literal.verbatim_congr ht) h hst
  next u =>
    obtain ⟨next, hscan, rfl⟩ := eq_ok_of_map_eq_ok h
    have hle : (r ++ t).length ≤ u.length := hrest ▸ Literal.length_interpolated_le hscan
    obtain ⟨s, rfl, hu⟩ := Literal.exists_eq_cons hx (Nat.le_succ_of_le hle)
    obtain ⟨s, rfl, rfl⟩ := Literal.exists_eq_cons hu hle
    exact map_congr (Literal.interpolated_congr ht) h hst
  next u =>
    subst hx
    rw [lexeme]
    exact map_congr (dollarString_congr (s := '$' :: s) ht) h hst
  next u =>
    subst hx
    rw [lexeme]
    exact map_congr (Literal.quoted_congr) h hst
  next u =>
    cases h
    obtain ⟨s, rfl, rfl⟩ := Literal.exists_eq_cons hx (Nat.le_of_eq (congrArg _ hrest.symm))
    obtain ⟨rfl, hr⟩ := Cursor.mk.inj hst
    obtain rfl : s = r := List.append_cancel_right hr
    rfl
  next hquote hdollar hapostrophe hline hblock hverbatim hinterpolated hcolon =>
    subst hx
    have hplain : IsPlain c (s ++ t) :=
      ⟨hline, hblock, hquote, hverbatim, hinterpolated, hdollar, hapostrophe, hcolon⟩
    rw [lexeme_of_isPlain hplain] at hlexeme
    cases hlexeme
    rw [lexeme_of_isPlain (hplain.congr ht), plainLexeme_congr ht hst]

/-- **A step of the lexer** takes the same token. -/
theorem step_congr (ht : LooksAlike t t') {lineStart : Bool} {c : Char} {st : Step}
    (h : step lineStart n c (s ++ t) = .ok st) (hst : st.next = ⟨m, r ++ t⟩) :
    step lineStart n c (s ++ t') = .ok { st with next := ⟨m, r ++ t'⟩ } := by
  rw [step] at h ⊢
  split at h
  next hc =>
    cases h
    obtain ⟨rfl, hr⟩ := Cursor.mk.inj hst
    obtain rfl : s = r := List.append_cancel_right hr
    rw [if_pos hc]
  next hc =>
    rw [if_neg hc]
    split at h
    next hc =>
      cases h
      rw [if_pos hc, skipLine, Literal.skipWhile_congr ht (by decide) hst]
    next hc =>
      rw [if_neg hc]
      exact lexeme_congr ht h hst

theorem eq_of_isCloser_punctuation {d : Char} (h : (punctuation d).isCloser) :
    d = '}' ∨ d = ')' ∨ d = ']' := by
  unfold punctuation at h
  split at h <;> first | cases h; done | decide

/-- A closing bracket is a token by itself. -/
theorem tokensFrom_isCloser {lineStart : Bool} {d : Char} (hd : (punctuation d).isCloser) (n : Nat)
    (s : List Char) :
    tokensFrom lineStart n (d :: s) =
      (⟨punctuation d, ⟨n, n + 1⟩⟩ :: ·) <$> tokensFrom false (n + 1) s := by
  rw [tokensFrom_cons]
  rcases eq_of_isCloser_punctuation hd with rfl | rfl | rfl <;> rfl

/-! ### Tokens -/

/-- A text may start at any offset of a source. -/
theorem exists_in (n : Nat) (s : List Char) : ∃ source, Cursor.In source ⟨n, s⟩ := by
  refine ⟨List.replicate n ' ' ++ s, List.replicate n ' ', rfl, ?_⟩
  induction n with
  | zero => rfl
  | succ n ih =>
    have ih : n = byteLength (List.replicate n ' ') := ih
    rw [List.replicate_succ, Text.byteLength_cons, ← ih, Nat.add_comm]
    rfl

/-- The tokens of a text stand in some source. -/
theorem exists_tokensFrom {lineStart : Bool} {tokens : List Token}
    (h : tokensFrom lineStart n s = .ok tokens) : ∃ source, TokensFrom source n tokens := by
  obtain ⟨source, hin⟩ := exists_in n s
  have hdivides := divides_tokensFrom lineStart hin
  rw [h] at hdivides
  exact ⟨source, hdivides⟩

/-- A step that a token stands behind leaves all of the text ahead that starts with the token. -/
theorem exists_eq_append_of_step {lineStart : Bool} {c : Char} {st : Step} {front rest : List Token}
    {token : Token} (hstep : step lineStart n c (s ++ t) = .ok st)
    (hrest : tokensFrom st.lineStart st.next.offset st.next.rest = .ok (front ++ token :: rest))
    (htoken : token.span.start = n + byteLength (c :: s)) :
    ∃ r, st.next = ⟨st.next.offset, r ++ t⟩ ∧ r.length ≤ s.length ∧
      st.next.offset + byteLength r = n + byteLength (c :: s) := by
  have hreach : Cursor.Reaches ⟨n, (c :: s) ++ t⟩ st.next := by
    have hahead := ahead_step lineStart n c (s ++ t)
    rw [hstep] at hahead
    exact hahead.reaches
  obtain ⟨source, hstands⟩ := exists_tokensFrom hrest
  have hstart := hstands.start_le token (by simp)
  obtain ⟨r, hr⟩ := hreach.exists_eq_append_of_le (Nat.le_trans hstart (Nat.le_of_eq htoken))
  have htotal : _ = n + byteLength (c :: s ++ t) := hreach.total
  have hle := length_step_le hstep
  rw [hr, List.length_append, List.length_append] at hle
  rw [hr, Text.byteLength_append, Text.byteLength_append] at htotal
  exact ⟨r, congrArg (Cursor.mk _) hr, by omega, by omega⟩

/-- **A text has the same tokens up to any one of them**, whatever stands there and looks alike. -/
theorem tokensFrom_congr (ht : LooksAlike t t') {lineStart : Bool} {front rest : List Token}
    {token : Token} (h : tokensFrom lineStart n (s ++ t) = .ok (front ++ token :: rest))
    (htoken : token.span.start = n + byteLength s) :
    ∃ lineStart', tokensFrom lineStart' (n + byteLength s) t = .ok (token :: rest) ∧
      tokensFrom lineStart n (s ++ t') =
        (front ++ ·) <$> tokensFrom lineStart' (n + byteLength s) t' := by
  induction hlength : s.length using Nat.strongRecOn generalizing lineStart n s front with
  | _ length ih =>
  obtain _ | ⟨c, s⟩ := s
  · -- The token stands at the start of the text, so it is the first one.
    obtain ⟨source, hstands⟩ := exists_tokensFrom h
    obtain _ | ⟨first, front⟩ := front
    · exact ⟨lineStart, h, (id_map _).symm⟩
    · exact absurd (hstands.lt_start token (by simp)) (Nat.not_lt.2 (Nat.le_of_eq htoken))
  rw [List.cons_append, tokensFrom_cons] at h
  cases hstep : step lineStart n c (s ++ t) with
  | error stop =>
    rw [hstep] at h
    cases h
  | ok st =>
    rw [hstep] at h
    have hgoes {front : List Token} (hrest : tokensFrom st.lineStart st.next.offset st.next.rest =
        .ok (front ++ token :: rest)) :
        ∃ r, st.next = ⟨st.next.offset, r ++ t⟩ ∧ ∃ lineStart',
          tokensFrom lineStart' (n + byteLength (c :: s)) t = .ok (token :: rest) ∧
          tokensFrom st.lineStart st.next.offset (r ++ t') =
            (front ++ ·) <$> tokensFrom lineStart' (n + byteLength (c :: s)) t' := by
      obtain ⟨r, hnext, hle, hn⟩ := exists_eq_append_of_step hstep hrest htoken
      rw [List.length_cons] at hlength
      rw [hnext] at hrest
      have hih := ih r.length (by omega) hrest (htoken.trans hn.symm) rfl
      rw [hn] at hih
      exact ⟨r, hnext, hih⟩
    cases hkind : st.kind? with
    | none =>
      simp only [hkind] at h
      obtain ⟨r, hnext, lineStart', hfirst, hsecond⟩ := hgoes h
      refine ⟨lineStart', hfirst, ?_⟩
      rw [List.cons_append, tokensFrom_cons, step_congr ht hstep hnext]
      simp only [hkind]
      exact hsecond
    | some kind =>
      simp only [hkind] at h
      obtain ⟨later, hlater, heq⟩ := eq_ok_of_map_eq_ok h
      obtain _ | ⟨first, front⟩ := front
      · -- The step does not go over the token, which stands behind its start.
        obtain ⟨rfl, -⟩ := List.cons.inj heq
        have hpos := c.utf8Size_pos
        rw [Text.byteLength_cons] at htoken
        have htoken : n = n + (c.utf8Size + byteLength s) := htoken
        omega
      obtain ⟨rfl, rfl⟩ := List.cons.inj heq
      obtain ⟨r, hnext, lineStart', hfirst, hsecond⟩ := hgoes hlater
      refine ⟨lineStart', hfirst, ?_⟩
      rw [List.cons_append, tokensFrom_cons, step_congr ht hstep hnext]
      simp only [hkind]
      rw [hsecond, ← comp_map]
      rfl

/-- **A text that ends with a closing delimiter keeps its tokens in any other text**: no lexeme
that starts in it goes on behind it. -/
theorem tokensFrom_moved {lineStart : Bool} {d : Char} {tokens : List Token} {last : Nat}
    (hd : (punctuation d).isCloser) (hs : s.getLast? = some d)
    (hlast : n + byteLength s = last + 1)
    (h : tokensFrom lineStart n s =
      .ok (tokens ++ [⟨punctuation d, ⟨last, last + 1⟩⟩, ⟨.endOfFile, ⟨last + 1, last + 1⟩⟩]))
    (k : Nat) (t : List Char) :
    tokensFrom lineStart (n + k) (s ++ t) =
      ((tokens ++ [(⟨punctuation d, ⟨last, last + 1⟩⟩ : Token)]).map (Token.moved k) ++ ·) <$>
        tokensFrom false (last + 1 + k) t := by
  obtain ⟨s, rfl⟩ := List.getLast?_eq_some_iff.1 hs
  have hsize : d.utf8Size = 1 := by
    rcases eq_of_isCloser_punctuation hd with rfl | rfl | rfl <;> rfl
  have hn : n + byteLength s = last := by
    rw [Text.byteLength_append, Text.byteLength_cons, hsize] at hlast
    exact Nat.succ.inj hlast
  have hlook : LooksAlike [d] (d :: t) := by
    refine .cons ?_ ?_ [] t <;>
      rcases eq_of_isCloser_punctuation hd with rfl | rfl | rfl <;> decide
  obtain ⟨lineStart', -, hmoved⟩ := tokensFrom_congr hlook h hn.symm
  rw [List.append_assoc, List.singleton_append, tokensFrom_add, hmoved, hn, tokensFrom_isCloser hd,
    ← comp_map, tokensFrom_add k (last + 1), ← movedTokens_append]
  simp only [List.append_assoc]
  rfl

/-- **A text has the same tokens before a line break**, and what is behind the line break divides as
a text that starts there. -/
theorem tokensFrom_append_lineBreak {lineStart : Bool} {tokens : List Token} {eof : Token}
    (h : tokensFrom lineStart n s = .ok (tokens ++ [eof]))
    (heof : eof.span.start = n + byteLength s) (t : List Char) :
    tokensFrom lineStart n (s ++ '\n' :: t) =
      (tokens ++ ·) <$> tokensFrom true (n + byteLength s + 1) t := by
  rw [← List.append_nil s] at h
  obtain ⟨lineStart', -, hcongr⟩ := tokensFrom_congr (.lineBreak t) h heof
  have hstep : step lineStart' (n + byteLength s) '\n' t =
      .ok ⟨none, ⟨n + byteLength s + 1, t⟩, true⟩ := by
    cases lineStart' <;> rfl
  rw [hcongr, tokensFrom_cons, hstep]

/-- **A text has the same tokens up to an opening brace**, whatever is behind it, and what is behind
it divides as a text that starts there. -/
theorem tokensFrom_append_openBrace {lineStart : Bool} {front rest : List Token} {token : Token}
    (h : tokensFrom lineStart n (s ++ '{' :: t) = .ok (front ++ token :: rest))
    (htoken : token.span.start = n + byteLength s) :
    token = ⟨.openBrace, ⟨n + byteLength s, n + byteLength s + 1⟩⟩ ∧
      tokensFrom false (n + byteLength s + 1) t = .ok rest ∧
      ∀ t', tokensFrom lineStart n (s ++ '{' :: t') = (front ++ ·) <$> (token :: ·) <$>
        tokensFrom false (n + byteLength s + 1) t' := by
  have hstep (lineStart : Bool) (m : Nat) (t : List Char) :
      tokensFrom lineStart m ('{' :: t) =
        (⟨.openBrace, ⟨m, m + 1⟩⟩ :: ·) <$> tokensFrom false (m + 1) t := by
    rw [tokensFrom_cons]
    cases lineStart <;> rfl
  obtain ⟨lineStart', htokens, -⟩ := tokensFrom_congr (.cons (by decide) (by decide) t t) h htoken
  rw [hstep] at htokens
  obtain ⟨later, hlater, heq⟩ := eq_ok_of_map_eq_ok htokens
  obtain ⟨rfl, rfl⟩ := List.cons.inj heq
  refine ⟨rfl, hlater, fun t' ↦ ?_⟩
  obtain ⟨lineStart', -, hcongr⟩ := tokensFrom_congr (.cons (by decide) (by decide) t t') h htoken
  rw [hcongr, hstep]

end Lexer

end DoubleDispatch
