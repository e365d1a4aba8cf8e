import DoubleDispatch.Proofs.Token.LiteralNesting
import DoubleDispatch.Proofs.Token.Tiling

/-!
# Where literals end

A literal without holes goes up to a place that can be told from its text alone. A string or a
character ends at its quote, unless that is the second half of a pair with a backslash before it; a
verbatim string ends at the first quote that is not half of a pair of quotes; and a raw string ends
behind the first run of as many quotes as opened it, or more. The lexer finds exactly these places
(`tokenize_literal`).

Pairs are told by parity: what a text ends with an odd number of is the first half of a pair with
whatever stands behind it (`Literal.EndsOdd`).
-/

namespace DoubleDispatch

open Text (byteLength)

namespace Literal

/-! ### Runs of one character -/

section Runs

variable {q c : Char} {s t : List Char}

/-- A run goes on in the text behind, if it takes up all before. -/
theorem runLength_append : runLength q (s ++ t) =
    runLength q s + if runLength q s = s.length then runLength q t else 0 := by
  unfold runLength
  rw [List.takeWhile_append]
  split
  next hall => rw [List.length_append, hall]
  next => rw [Nat.add_zero]

theorem runLength_replicate (n : Nat) : runLength q (List.replicate n q) = n := by
  simp [runLength]

/-- The text ends with an odd number of one character. -/
def EndsOdd (q : Char) (s : List Char) : Prop := runLength q s.reverse % 2 = 1

instance (q : Char) (s : List Char) : Decidable (EndsOdd q s) :=
  inferInstanceAs (Decidable (_ = _))

theorem not_endsOdd_nil : ¬EndsOdd q [] := nofun

theorem endsOdd_singleton : EndsOdd q [q] := by
  simp [EndsOdd, runLength]

/-- Another character at the start does not matter. -/
theorem endsOdd_cons (hc : c ≠ q) : EndsOdd q (c :: s) ↔ EndsOdd q s := by
  rw [EndsOdd, EndsOdd, List.reverse_cons, runLength_append, runLength_cons_of_ne hc, ite_self,
    Nat.add_zero]

/-- The character and one more at the start do not matter. -/
theorem endsOdd_cons_cons : EndsOdd q (q :: c :: s) ↔ EndsOdd q s := by
  have hpair : runLength q [c, q] % 2 = 0 := by
    by_cases hc : c = q
    · rw [hc, runLength_cons_self, runLength_cons_self, runLength, List.takeWhile_nil]
      rfl
    · rw [runLength_cons_of_ne hc]
  rw [EndsOdd, EndsOdd, List.reverse_cons, List.reverse_cons, List.append_assoc,
    List.singleton_append, runLength_append]
  split
  · omega
  · rw [Nat.add_zero]

end Runs

/-! ### Where strings and characters end -/

/-- The text stands between two quotes, the second of which is the first one that is not the second
half of a pair with a backslash. No line break before it is outside of such a pair. -/
structure IsInside (quote : Char) (inside : List Char) : Prop where
  ends : ¬EndsOdd '\\' inside
  first : ∀ before c later, inside = before ++ c :: later → c = quote ∨ c = '\n' →
    EndsOdd '\\' before

namespace IsInside

variable {quote c : Char} {s : List Char}

theorem nil : IsInside quote [] where
  ends := not_endsOdd_nil
  first _ _ _ h := by simp at h

/-- A pair with a backslash does not matter. -/
theorem pair_iff (hquote : quote ≠ '\\') :
    IsInside quote ('\\' :: c :: s) ↔ IsInside quote s := by
  constructor
  · rintro ⟨hends, hfirst⟩
    refine ⟨fun h ↦ hends (endsOdd_cons_cons.2 h), ?_⟩
    rintro before d later rfl hd
    exact endsOdd_cons_cons.1 (hfirst ('\\' :: c :: before) d later rfl hd)
  · rintro ⟨hends, hfirst⟩
    refine ⟨fun h ↦ hends (endsOdd_cons_cons.1 h), fun before d later heq hd ↦ ?_⟩
    match before, heq with
    | [], heq =>
      obtain rfl : '\\' = d := (List.cons.inj heq).1
      rcases hd with rfl | hd
      · exact absurd rfl hquote
      · cases hd
    | [_], heq =>
      obtain rfl := (List.cons.inj heq).1
      exact endsOdd_singleton
    | _ :: _ :: before, heq =>
      simp only [List.cons_append, List.cons.injEq] at heq
      obtain ⟨rfl, rfl, rfl⟩ := heq
      exact endsOdd_cons_cons.2 (hfirst before d later rfl hd)

/-- Another character is neither the quote nor a line break. -/
theorem cons_iff (hc : c ≠ '\\') :
    IsInside quote (c :: s) ↔ c ≠ quote ∧ c ≠ '\n' ∧ IsInside quote s := by
  constructor
  · rintro ⟨hends, hfirst⟩
    refine ⟨fun h ↦ ?_, fun h ↦ ?_, fun h ↦ hends ((endsOdd_cons hc).2 h), ?_⟩
    · exact not_endsOdd_nil (hfirst [] c s rfl (.inl h))
    · exact not_endsOdd_nil (hfirst [] c s rfl (.inr h))
    · rintro before d later rfl hd
      exact (endsOdd_cons hc).1 (hfirst (c :: before) d later rfl hd)
  · rintro ⟨hquote, hline, hends, hfirst⟩
    refine ⟨fun h ↦ hends ((endsOdd_cons hc).1 h), fun before d later heq hd ↦ ?_⟩
    cases before with
    | nil =>
      obtain rfl := (List.cons.inj heq).1
      exact absurd hd (not_or.2 ⟨hquote, hline⟩)
    | cons _ before =>
      obtain ⟨rfl, rfl⟩ := List.cons.inj heq
      exact (endsOdd_cons hc).2 (hfirst before d later rfl hd)

end IsInside

theorem IsQuoted.exists_isInside {quote : Char} {s : List Char} (hquote : quote ≠ '\\')
    (h : IsQuoted quote s) : ∃ inside, s = inside ++ [quote] ∧ IsInside quote inside := by
  induction h with
  | close => exact ⟨[], rfl, .nil⟩
  | @escape c s _ ih =>
    obtain ⟨inside, rfl, hinside⟩ := ih
    exact ⟨'\\' :: c :: inside, rfl, (IsInside.pair_iff hquote).2 hinside⟩
  | @char c s hne hescape hline _ ih =>
    obtain ⟨inside, rfl, hinside⟩ := ih
    exact ⟨c :: inside, rfl, (IsInside.cons_iff hescape).2 ⟨hne, hline, hinside⟩⟩

theorem IsInside.isQuoted {quote : Char} {inside : List Char} (hquote : quote ≠ '\\')
    (h : IsInside quote inside) : IsQuoted quote (inside ++ [quote]) := by
  induction hlength : inside.length using Nat.strongRecOn generalizing inside with
  | ind n ih =>
    rcases inside with - | ⟨c, s⟩
    · exact .close
    · simp only [List.length_cons] at hlength
      by_cases hc : c = '\\'
      · subst hc
        rcases s with - | ⟨d, s⟩
        · exact absurd endsOdd_singleton h.ends
        · simp only [List.length_cons] at hlength
          exact .escape (ih s.length (by omega) ((pair_iff hquote).1 h) rfl)
      · obtain ⟨hne, hline, hs⟩ := (cons_iff hc).1 h
        exact .char hne hc hline (ih s.length (by omega) hs rfl)

/-! ### Where verbatim strings end -/

/-- A quote with this text before it and behind it is half of a pair: the second half if an odd
number of quotes stands before it, and else the first one if a quote stands behind it. -/
def IsHalf (before behind : List Char) : Prop := EndsOdd '"' before ∨ behind.head? = some '"'

/-- The text stands between the quotes of a verbatim string: the first quote behind the opening one
that is not half of a pair ends it. -/
structure IsInsideVerbatim (inside behind : List Char) : Prop where
  ends : ¬IsHalf inside behind
  first : ∀ before later, inside = before ++ '"' :: later → IsHalf before (later ++ '"' :: behind)

namespace IsInsideVerbatim

variable {c : Char} {s behind : List Char}

theorem nil_iff : IsInsideVerbatim [] behind ↔ behind.head? ≠ some '"' :=
  ⟨fun h hhead ↦ h.ends (.inr hhead),
    fun h ↦ ⟨not_or.2 ⟨not_endsOdd_nil, h⟩, fun _ _ heq ↦ by simp at heq⟩⟩

/-- What does not change the halves of pairs behind it may be left out at the start. -/
theorem of_append {front : List Char}
    (hhalf : ∀ before later, IsHalf (front ++ before) later ↔ IsHalf before later)
    (h : IsInsideVerbatim (front ++ s) behind) : IsInsideVerbatim s behind where
  ends hends := h.ends ((hhalf _ _).2 hends)
  first before later heq :=
    (hhalf _ _).1 (h.first (front ++ before) later (by rw [heq, List.append_assoc]))

/-- A pair of quotes does not matter. -/
theorem pair_iff : IsInsideVerbatim ('"' :: '"' :: s) behind ↔ IsInsideVerbatim s behind := by
  have hhalf (before later : List Char) :
      IsHalf (['"', '"'] ++ before) later ↔ IsHalf before later := or_congr_left endsOdd_cons_cons
  constructor
  · exact of_append hhalf
  · rintro ⟨hends, hfirst⟩
    refine ⟨fun h ↦ hends ((hhalf _ _).1 h), fun before later heq ↦ ?_⟩
    match before, heq with
    | [], heq =>
      obtain rfl := (List.cons.inj heq).2
      exact .inr rfl
    | [_], heq =>
      obtain rfl := (List.cons.inj heq).1
      exact .inl endsOdd_singleton
    | _ :: _ :: before, heq =>
      simp only [List.cons_append, List.cons.injEq] at heq
      obtain ⟨rfl, rfl, rfl⟩ := heq
      exact (hhalf _ _).2 (hfirst before later rfl)

theorem cons_iff (hc : c ≠ '"') :
    IsInsideVerbatim (c :: s) behind ↔ IsInsideVerbatim s behind := by
  have hhalf (before later : List Char) : IsHalf ([c] ++ before) later ↔ IsHalf before later :=
    or_congr_left (endsOdd_cons hc)
  constructor
  · exact of_append hhalf
  · rintro ⟨hends, hfirst⟩
    refine ⟨fun h ↦ hends ((hhalf _ _).1 h), fun before later heq ↦ ?_⟩
    cases before with
    | nil => exact absurd (List.cons.inj heq).1 hc
    | cons _ before =>
      obtain ⟨rfl, rfl⟩ := List.cons.inj heq
      exact (hhalf _ _).2 (hfirst before later rfl)

/-- A quote at the start is the first half of a pair. -/
theorem exists_of_quote (h : IsInsideVerbatim ('"' :: s) behind) : ∃ t, s = '"' :: t := by
  rcases s with - | ⟨d, s⟩
  · exact absurd (.inl endsOdd_singleton) h.ends
  · rcases h.first [] (d :: s) rfl with hodd | hhead
    · exact absurd hodd not_endsOdd_nil
    · exact ⟨s, by rw [Option.some.inj hhead]⟩

end IsInsideVerbatim

theorem IsVerbatim.exists_isInside {s behind : List Char} (h : IsVerbatim s)
    (hbehind : behind.head? ≠ some '"') :
    ∃ inside, s = inside ++ ['"'] ∧ IsInsideVerbatim inside behind := by
  induction h with
  | close => exact ⟨[], rfl, IsInsideVerbatim.nil_iff.2 hbehind⟩
  | pair _ ih =>
    obtain ⟨inside, rfl, hinside⟩ := ih
    exact ⟨'"' :: '"' :: inside, rfl, IsInsideVerbatim.pair_iff.2 hinside⟩
  | @char c _ hquote _ ih =>
    obtain ⟨inside, rfl, hinside⟩ := ih
    exact ⟨c :: inside, rfl, (IsInsideVerbatim.cons_iff hquote).2 hinside⟩

theorem IsInsideVerbatim.isVerbatim {inside behind : List Char}
    (h : IsInsideVerbatim inside behind) : IsVerbatim (inside ++ ['"']) := by
  induction hlength : inside.length using Nat.strongRecOn generalizing inside with
  | ind n ih =>
    rcases inside with - | ⟨c, s⟩
    · exact .close
    · simp only [List.length_cons] at hlength
      by_cases hc : c = '"'
      · subst hc
        obtain ⟨s, rfl⟩ := h.exists_of_quote
        simp only [List.length_cons] at hlength
        exact .pair (ih s.length (by omega) (pair_iff.1 h) rfl)
      · exact .char hc (ih s.length (by omega) ((cons_iff hc).1 h) rfl)

/-! ### Where raw strings end -/

/-- The text stands in a raw string that some quotes open, before the first run of as many quotes or
more. All of that run belongs to the string. -/
structure IsInsideRaw (quotes : Nat) (inside : List Char) (run : Nat) (behind : List Char) :
    Prop where
  enough : quotes ≤ run
  starts : inside.getLast? ≠ some '"'
  stops : behind.head? ≠ some '"'
  first : ¬List.replicate quotes '"' <:+: inside

/-- What does not hold a character stands before it or behind it. -/
theorem infix_of_notMem {l a b : List Char} {c : Char} (hc : c ∉ l) (h : l <:+: a ++ c :: b) :
    l <:+: a ∨ l <:+: b := by
  rcases List.infix_append_iff.1 h with ha | hcb | ⟨front, back, rfl, hfront, hback⟩
  · exact .inl ha
  · rcases List.infix_cons_iff.1 hcb with hprefix | hb
    · rcases l with - | ⟨d, l⟩
      · exact .inl (List.nil_infix)
      · exact absurd (List.mem_cons.2 (.inl (List.cons_prefix_cons.1 hprefix).1.symm)) hc
    · exact .inr hb
  · rcases back with - | ⟨d, back⟩
    · rw [List.append_nil]
      exact .inl hfront.isInfix
    · have hd : d = c := (List.cons_prefix_cons.1 hback).1
      exact absurd (List.mem_append_right front (List.mem_cons.2 (.inl hd.symm))) hc

theorem replicate_infix_replicate {n m : Nat} {c : Char} (h : n ≤ m) :
    List.replicate n c <:+: List.replicate m c :=
  List.infix_replicate_iff.2 ⟨by simpa using h, by rw [List.length_replicate]⟩

theorem byteLength_quotes (n : Nat) : byteLength (List.replicate n '"') = n := by
  induction n with
  | zero => rfl
  | succ n ih =>
    rw [List.replicate_succ, Text.byteLength_cons, ih, Nat.add_comm]
    rfl

section Raw

variable {quotes run n : Nat} {s : List Char}

/-- A run of quotes is counted. -/
theorem raw_replicate (count : Nat) : raw quotes run n (List.replicate count '"' ++ s) =
    raw quotes (run + count) (n + count) s := by
  induction count generalizing run n with
  | zero => rfl
  | succ count ih =>
    rw [List.replicate_succ, List.cons_append, raw, if_pos rfl, ih]
    congr 1 <;> omega

/-- A run that is long enough ends the string. -/
theorem raw_of_le (hrun : quotes ≤ run) (hs : s.head? ≠ some '"') :
    raw quotes run n s = .ok ⟨n, s⟩ := by
  rcases s with - | ⟨c, s⟩
  · rw [raw, if_pos hrun]
  · have hc : c ≠ '"' := fun hc ↦ hs (congrArg some hc)
    rw [raw, if_neg hc, if_pos hrun]

/-- Text without a run that is long enough is passed over. Only the quotes at its end count on. -/
theorem raw_append {inside : List Char}
    (h : ¬List.replicate quotes '"' <:+: List.replicate run '"' ++ inside) :
    raw quotes run n (inside ++ s) =
      raw quotes (runLength '"' (List.replicate run '"' ++ inside).reverse)
        (n + byteLength inside) s := by
  induction inside generalizing run n with
  | nil => simp [runLength_replicate]
  | cons c inside ih =>
    by_cases hc : c = '"'
    · subst hc
      have hquotes : List.replicate run '"' ++ '"' :: inside =
          List.replicate (run + 1) '"' ++ inside := by
        rw [List.replicate_succ', List.append_assoc, List.singleton_append]
      rw [hquotes] at h ⊢
      rw [List.cons_append, raw, if_pos rfl, ih h, Text.byteLength_cons, ← Nat.add_assoc]
      rfl
    · have hrun : ¬quotes ≤ run := fun hle ↦
        h ((replicate_infix_replicate hle).trans (List.prefix_append _ _).isInfix)
      have hinside : ¬List.replicate quotes '"' <:+: List.replicate 0 '"' ++ inside :=
        fun hbody ↦ h (hbody.trans ⟨List.replicate run '"' ++ [c], [], by simp⟩)
      have hends : runLength '"' (List.replicate run '"' ++ c :: inside).reverse =
          runLength '"' (List.replicate 0 '"' ++ inside).reverse := by
        rw [List.reverse_append, List.reverse_cons, List.append_assoc, runLength_append,
          List.singleton_append, runLength_cons_of_ne hc, ite_self, Nat.add_zero]
        rfl
      rw [List.cons_append, raw, if_neg hc, if_neg hrun, ih hinside, hends, Text.byteLength_cons,
        Nat.add_assoc]

/-- **A raw string ends** behind the first run that is long enough. -/
theorem IsInsideRaw.raw_eq {inside behind : List Char} (h : IsInsideRaw quotes inside run behind)
    (n : Nat) : raw quotes 0 n (inside ++ List.replicate run '"' ++ behind) =
      .ok ⟨n + byteLength (inside ++ List.replicate run '"'), behind⟩ := by
  have hnone : runLength '"' inside.reverse = 0 := by
    rcases List.eq_nil_or_concat inside with rfl | ⟨front, c, rfl⟩
    · rfl
    · have hc : c ≠ '"' := fun hc ↦ h.starts (by simp [hc])
      simp [runLength, hc]
  have hfirst : ¬List.replicate quotes '"' <:+: List.replicate 0 '"' ++ inside := h.first
  have hpassed : raw quotes 0 n (inside ++ (List.replicate run '"' ++ behind)) =
      raw quotes 0 (n + byteLength inside) (List.replicate run '"' ++ behind) := by
    rw [raw_append hfirst, List.replicate_zero, List.nil_append, hnone]
  rw [List.append_assoc, hpassed, raw_replicate, Nat.zero_add, raw_of_le h.enough h.stops,
    Text.byteLength_append, byteLength_quotes, Nat.add_assoc]

theorem exists_of_raw {m : Nat} {r : List Char} (hquotes : 0 < quotes)
    (h : raw quotes run n s = .ok ⟨m, r⟩) : ∃ inside count,
      List.replicate run '"' ++ s = inside ++ List.replicate count '"' ++ r ∧
        IsInsideRaw quotes inside count r := by
  have hnil : ¬List.replicate quotes '"' <:+: [] := by
    rw [List.infix_nil, List.replicate_eq_nil_iff]
    omega
  have hnone : (none : Option Char) ≠ some '"' := (Option.some_ne_none _).symm
  fun_induction raw quotes run n s with
  | case1 run n hrun =>
    cases h
    exact ⟨[], run, by simp, hrun, hnone, hnone, hnil⟩
  | case2 => cases h
  | case3 run n s ih =>
    obtain ⟨inside, count, heq, hinside⟩ := ih h
    refine ⟨inside, count, ?_, hinside⟩
    rw [← heq, List.replicate_succ', List.append_assoc, List.singleton_append]
  | case4 run n c s hc hrun =>
    cases h
    exact ⟨[], run, rfl, hrun, hnone, by simpa using hc, hnil⟩
  | case5 run n c s hc hrun ih =>
    obtain ⟨inside, count, heq, henough, hstarts, hstops, hfirst⟩ := ih h
    refine ⟨List.replicate run '"' ++ c :: inside, count, ?_, henough, ?_, hstops, fun hbody ↦ ?_⟩
    · rw [List.replicate_zero, List.nil_append] at heq
      rw [heq]
      simp
    · rcases List.eq_nil_or_concat inside with rfl | ⟨front, d, rfl⟩
      · simpa using hc
      · rw [List.getLast?_append]
        simpa [List.getLast?_cons] using hstarts
    · rcases infix_of_notMem (by simpa using fun _ ↦ hc) hbody with hbefore | hinside
      · have hle := (List.infix_replicate_iff.1 hbefore).1
        rw [List.length_replicate] at hle
        exact hrun hle
      · exact hfirst hinside

end Raw

/-! ### Forms of literals -/

section Faults

variable {n : Nat} {s : List Char} {stop : ScanStop}

theorem fault_of_quoted {quote : Char} {fault : LexicalFault}
    (h : quoted quote fault n s = .error stop) : stop.fault = fault := by
  fun_induction quoted quote fault n s with
  | case1 => cases h; rfl
  | case2 => cases h; rfl
  | case3 _ _ _ ih => exact ih h
  | case4 => cases h
  | case5 => cases h; rfl
  | case6 _ _ _ _ _ _ _ ih => exact ih h

theorem fault_of_verbatim (h : verbatim n s = .error stop) : stop.fault = .openVerbatim := by
  fun_induction verbatim n s with
  | case1 => cases h; rfl
  | case2 _ _ ih => exact ih h
  | case3 => cases h
  | case4 _ _ _ _ _ ih => exact ih h

theorem fault_of_raw {quotes run : Nat} (h : raw quotes run n s = .error stop) :
    stop.fault = .openRaw := by
  fun_induction raw quotes run n s with
  | case1 => cases h
  | case2 => cases h; rfl
  | case3 _ _ _ ih => exact ih h
  | case4 => cases h
  | case5 _ _ _ _ _ _ ih => exact ih h

end Faults

/-- The forms of literals between quotes that have no holes. -/
inductive Form where
  | string
  | character
  | verbatim
  | raw (quotes : Nat)
deriving DecidableEq, Repr

namespace Form

/-- What a literal opens with. -/
def opening : Form → List Char
  | string => ['"']
  | character => ['\'']
  | verbatim => ['@', '"']
  | raw quotes => List.replicate quotes '"'

/-- Why a literal of this form is none: it is left open. -/
def fault : Form → LexicalFault
  | string => .openString
  | character => .openCharacter
  | verbatim => .openVerbatim
  | raw _ => .openRaw

/-- Before this text the opening is one. Three quotes or more open a raw string, and all of them
do. -/
def OpensBefore : Form → List Char → Prop
  | string, behind => ¬['"', '"'] <+: behind
  | raw quotes, behind => 3 ≤ quotes ∧ behind.head? ≠ some '"'
  | _, _ => True

/-- What stands inside a literal, what closes it and what is behind it. -/
inductive Closes : Form → (inside closing behind : List Char) → Prop
  | string {inside behind : List Char} (h : IsInside '"' inside) : Closes string inside ['"'] behind
  | character {inside behind : List Char} (h : IsInside '\'' inside) :
    Closes character inside ['\''] behind
  | verbatim {inside behind : List Char} (h : IsInsideVerbatim inside behind) :
    Closes verbatim inside ['"'] behind
  | raw {quotes run : Nat} {inside behind : List Char} (h : IsInsideRaw quotes inside run behind) :
    Closes (raw quotes) inside (List.replicate run '"') behind

/-- The scan behind the opening. -/
def scan : Form → Nat → List Char → Scan
  | string => Literal.string
  | character => Literal.character
  | verbatim => Literal.verbatim
  | raw quotes => Literal.raw quotes 0

variable {form : Form} {n m : Nat} {inside closing behind s r : List Char}

/-- A scan ends where the literal closes. -/
theorem scan_eq_ok (h : form.Closes inside closing behind) (n : Nat) :
    form.scan n (inside ++ closing ++ behind) =
      .ok ⟨n + byteLength (inside ++ closing), behind⟩ := by
  cases h with
  | string h => exact quoted_append (by decide) (h.isQuoted (by decide)) n behind
  | character h => exact quoted_append (by decide) (h.isQuoted (by decide)) n behind
  | verbatim h => exact verbatim_append h.isVerbatim n fun hhead ↦ h.ends (.inr hhead)
  | raw h => exact h.raw_eq n

/-- Where a scan ends, the literal closes. -/
theorem exists_closes_of_scan (hopens : form.OpensBefore s) (h : form.scan n s = .ok ⟨m, r⟩) :
    ∃ inside closing, s = inside ++ closing ++ r ∧ form.Closes inside closing r := by
  cases form with
  | string =>
    obtain ⟨body, hbody, rfl⟩ := exists_of_quoted h
    obtain ⟨inside, rfl, hinside⟩ := hbody.exists_isInside (by decide)
    exact ⟨inside, _, rfl, .string hinside⟩
  | character =>
    obtain ⟨body, hbody, rfl⟩ := exists_of_quoted h
    obtain ⟨inside, rfl, hinside⟩ := hbody.exists_isInside (by decide)
    exact ⟨inside, _, rfl, .character hinside⟩
  | verbatim =>
    obtain ⟨body, hbody, rfl, hr⟩ := exists_of_verbatim h
    obtain ⟨inside, rfl, hinside⟩ := hbody.exists_isInside hr
    exact ⟨inside, _, rfl, .verbatim hinside⟩
  | raw quotes =>
    obtain ⟨inside, count, heq, hinside⟩ := exists_of_raw (by have := hopens.1; omega) h
    exact ⟨inside, _, heq, .raw hinside⟩

/-- A scan gives up for one reason only. -/
theorem fault_of_scan {stop : ScanStop} (h : form.scan n s = .error stop) :
    stop.fault = form.fault := by
  cases form with
  | string => exact fault_of_quoted h
  | character => exact fault_of_quoted h
  | verbatim => exact fault_of_verbatim h
  | raw quotes => exact fault_of_raw h

end Form

end Literal

namespace Lexer

open Literal (runLength runLength_append runLength_cons_of_ne runLength_cons_self
  runLength_eq_zero runLength_replicate)

/-- One quote or two open a string that ends at the next quote. -/
theorem stringFrom_eq_string {s : List Char} (h : ¬['"', '"'] <+: s) (n : Nat) :
    stringFrom n ('"' :: s) = Literal.string (n + 1) s := by
  rcases s with - | ⟨c, s⟩
  · rfl
  · by_cases hc : c = '"'
    · subst hc
      have hs : s.head? ≠ some '"' := by
        intro hhead
        obtain ⟨t, rfl⟩ := List.head?_eq_some_iff.1 hhead
        exact h ⟨t, rfl⟩
      have hrun : runLength '"' ('"' :: '"' :: s) = 2 := by
        rw [runLength_cons_self, runLength_cons_self, runLength_eq_zero hs]
      simp only [stringFrom, hrun]
      rfl
    · have hrun : runLength '"' ('"' :: c :: s) = 1 := by
        rw [runLength_cons_self, runLength_cons_of_ne hc]
      simp only [stringFrom, hrun]
      rfl

/-- Three quotes or more open a raw string. -/
theorem stringFrom_replicate {quotes : Nat} {s : List Char} (hquotes : 3 ≤ quotes)
    (hs : s.head? ≠ some '"') (n : Nat) :
    stringFrom n (List.replicate quotes '"' ++ s) = Literal.raw quotes 0 (n + quotes) s := by
  have hrun : runLength '"' (List.replicate quotes '"' ++ s) = quotes := by
    rw [runLength_append, runLength_replicate, List.length_replicate, if_pos rfl,
      runLength_eq_zero hs, Nat.add_zero]
  simp only [stringFrom, hrun]
  rw [if_pos hquotes, List.drop_left' List.length_replicate]

/-- Where a literal opens, the lexeme is what the scan of its form finds. -/
theorem exists_lexeme_of_opening {form : Literal.Form} {s : List Char}
    (h : form.OpensBefore s) : ∃ c t, form.opening ++ s = c :: t ∧ Text.isBlank c = false ∧
      c ≠ '#' ∧ ∀ n, lexeme n c t = literal <$> form.scan (n + byteLength form.opening) s := by
  cases form with
  | string =>
    refine ⟨'"', s, rfl, by decide, by decide, fun n ↦ ?_⟩
    exact congrArg (literal <$> ·) (stringFrom_eq_string h n)
  | character => exact ⟨'\'', s, rfl, by decide, by decide, fun n ↦ rfl⟩
  | verbatim => exact ⟨'@', '"' :: s, rfl, by decide, by decide, fun n ↦ rfl⟩
  | raw quotes =>
    obtain ⟨hquotes, hs⟩ := h
    obtain ⟨more, rfl⟩ := Nat.exists_eq_add_of_le' (Nat.le_trans (by decide : 1 ≤ 3) hquotes)
    refine ⟨'"', List.replicate more '"' ++ s, rfl, by decide, by decide, fun n ↦ ?_⟩
    have hstring := stringFrom_replicate hquotes hs n
    rw [List.replicate_succ, List.cons_append] at hstring
    rw [Literal.Form.opening, Literal.byteLength_quotes]
    exact congrArg (literal <$> ·) hstring

/-! ### Places between tokens -/

/-- Behind the given tokens, the lexer comes to a place at which the next lexeme starts. -/
inductive ComesTo (source : List Char) : List Token → Bool → Cursor → Prop
  | start : ComesTo source [] true ⟨0, source⟩
  | passed {front : List Token} {lineStart : Bool} {n : Nat} {c : Char} {s : List Char} {st : Step}
      (h : ComesTo source front lineStart ⟨n, c :: s⟩) (hstep : step lineStart n c s = .ok st)
      (hkind : st.kind? = none) : ComesTo source front st.lineStart st.next
  | token {front : List Token} {lineStart : Bool} {n : Nat} {c : Char} {s : List Char} {st : Step}
      {kind : TokenKind} (h : ComesTo source front lineStart ⟨n, c :: s⟩)
      (hstep : step lineStart n c s = .ok st) (hkind : st.kind? = some kind) :
    ComesTo source (front ++ [⟨kind, ⟨n, st.next.offset⟩⟩]) st.lineStart st.next

namespace ComesTo

variable {source : String} {front : List Token} {lineStart : Bool} {n : Nat} {c : Char}
  {s : List Char}

/-- The tokens of a source are those before a place and those from there on. -/
theorem tokenize_eq {a : Cursor} (h : ComesTo source.toList front lineStart a) :
    tokenize source = (front ++ ·) <$> tokensFrom lineStart a.offset a.rest := by
  induction h with
  | start => exact (id_map (tokenize source)).symm
  | passed _ hstep hkind ih =>
    rw [ih, tokensFrom_cons, hstep]
    simp only [hkind]
  | token _ hstep hkind ih =>
    rw [ih, tokensFrom_cons, hstep]
    simp only [hkind, Functor.map_map, List.append_assoc, List.singleton_append]

/-- Behind a literal, the tokens of what follows it are those that follow. -/
theorem tokenize_of_literal (h : ComesTo source.toList front lineStart ⟨n, c :: s⟩)
    (hblank : Text.isBlank c = false) (hsign : c ≠ '#') {next : Cursor}
    (hlexeme : lexeme n c s = .ok (literal next)) :
    tokenize source = (front ++ ⟨.literal, ⟨n, next.offset⟩⟩ :: ·) <$>
      tokensFrom false next.offset next.rest := by
  have hstep : step lineStart n c s = .ok (literal next) := by
    rw [step_of_visible hblank hsign, hlexeme]
  rw [h.tokenize_eq, tokensFrom_cons, hstep]
  simp only [literal, Functor.map_map]

/-- An open literal is reported from the place on at which it opens. -/
theorem tokenize_of_stop (h : ComesTo source.toList front lineStart ⟨n, c :: s⟩)
    (hblank : Text.isBlank c = false) (hsign : c ≠ '#') {stop : ScanStop}
    (hlexeme : lexeme n c s = .error stop) :
    tokenize source = .error ⟨stop.fault, ⟨n, stop.offset⟩⟩ := by
  have hstep : step lineStart n c s = .error stop := by
    rw [step_of_visible hblank hsign, hlexeme]
  rw [h.tokenize_eq, tokensFrom_cons, hstep]
  rfl

end ComesTo

end Lexer

/-- **Literals end exactly where their text says.** Where a literal without holes opens at a place
between two tokens, it is one token up to the place that closes it, and no other token of the source
reaches into it; if no place does, the source does not divide, and the error that says so starts
where the literal opens. -/
theorem tokenize_literal {source : String} {front : List Token} {lineStart : Bool} {n : Nat}
    {form : Literal.Form} {body : List Char}
    (h : Lexer.ComesTo source.toList front lineStart ⟨n, form.opening ++ body⟩)
    (hopens : form.OpensBefore body) :
    (∀ inside closing behind, body = inside ++ closing ++ behind →
      form.Closes inside closing behind →
      let stop := n + byteLength (form.opening ++ inside ++ closing)
      tokenize source =
        (front ++ ⟨.literal, ⟨n, stop⟩⟩ :: ·) <$> Lexer.tokensFrom false stop behind ∧
      ∀ tokens, tokenize source = .ok tokens →
        ∃ later, tokens = front ++ ⟨.literal, ⟨n, stop⟩⟩ :: later ∧
          (∀ t ∈ front, t.span.stop ≤ n) ∧ ∀ t ∈ later, stop ≤ t.span.start) ∧
    ((¬∃ inside closing behind, body = inside ++ closing ++ behind ∧
      form.Closes inside closing behind) →
      ∃ stop, tokenize source = .error ⟨form.fault, ⟨n, stop⟩⟩) := by
  obtain ⟨c, t, htext, hblank, hsign, hlexeme⟩ := Lexer.exists_lexeme_of_opening hopens
  rw [htext] at h
  refine ⟨fun inside closing behind hbody hcloses ↦ ?_, fun hopen ↦ ?_⟩
  · intro stop
    have hscan := Literal.Form.scan_eq_ok hcloses (n + byteLength form.opening)
    have hstop : n + byteLength form.opening + byteLength (inside ++ closing) = stop := by
      simp only [stop, Text.byteLength_append]
      omega
    rw [← hbody, hstop] at hscan
    have htokens := h.tokenize_of_literal hblank hsign
      ((hlexeme n).trans (congrArg (Lexer.literal <$> ·) hscan))
    refine ⟨htokens, fun tokens hok ↦ ?_⟩
    rw [htokens] at hok
    obtain ⟨later, hlater, rfl⟩ := Lexer.eq_ok_of_map_eq_ok hok
    refine ⟨later, rfl, ?_⟩
    have hpairs := (tokensFrom_of_tokenize (htokens.trans hok)).pairwise
    obtain ⟨-, hbehind, hbefore⟩ := List.pairwise_append.1 hpairs
    exact ⟨fun t ht ↦ (hbefore t ht _ List.mem_cons_self).1,
      fun t ht ↦ ((List.pairwise_cons.1 hbehind).1 t ht).1⟩
  · cases hscan : form.scan (n + byteLength form.opening) body with
    | ok next =>
      obtain ⟨inside, closing, hbody, hcloses⟩ :=
        Literal.Form.exists_closes_of_scan hopens hscan
      exact absurd ⟨inside, closing, _, hbody, hcloses⟩ hopen
    | error stop =>
      have hstop := h.tokenize_of_stop hblank hsign
        ((hlexeme n).trans (congrArg (Lexer.literal <$> ·) hscan))
      exact ⟨stop.offset, Literal.Form.fault_of_scan hscan ▸ hstop⟩

/-- A raw string that four quotes close behind two others, and a string behind a name whose only
further quote is half of a pair. -/
theorem tokenize_literal_samples :
    let raw := "\"\"\"a\"\"b\"\"\"\"c"
    let unclosed := "c\"\\\""
    (Lexer.ComesTo raw.toList [] true
        ⟨0, (Literal.Form.raw 3).opening ++ "a\"\"b\"\"\"\"c".toList⟩ ∧
      (Literal.Form.raw 3).OpensBefore "a\"\"b\"\"\"\"c".toList ∧
      (Literal.Form.raw 3).Closes "a\"\"b".toList "\"\"\"\"".toList ['c'] ∧
      tokenize raw = (⟨.literal, ⟨0, 11⟩⟩ :: ·) <$> Lexer.tokensFrom false 11 ['c']) ∧
    Lexer.ComesTo unclosed.toList [⟨.identifier "c", ⟨0, 1⟩⟩] false
      ⟨1, Literal.Form.string.opening ++ ['\\', '"']⟩ ∧
    Literal.Form.string.OpensBefore ['\\', '"'] ∧
    ∃ stop, tokenize unclosed = .error ⟨.openString, ⟨1, stop⟩⟩ := by
  intro raw unclosed
  have hraw : Lexer.ComesTo raw.toList [] true
      ⟨0, (Literal.Form.raw 3).opening ++ "a\"\"b\"\"\"\"c".toList⟩ := by
    have hsplit : raw.toList =
        (Literal.Form.raw 3).opening ++ "a\"\"b\"\"\"\"c".toList := by decide
    rw [← hsplit]
    exact .start
  have hrawOpens : (Literal.Form.raw 3).OpensBefore "a\"\"b\"\"\"\"c".toList :=
    ⟨Nat.le_refl 3, by decide⟩
  have hrawCloses : (Literal.Form.raw 3).Closes "a\"\"b".toList "\"\"\"\"".toList ['c'] :=
    @Literal.Form.Closes.raw 3 4 _ _ ⟨by decide, by decide, by decide, by decide⟩
  have hunclosed : Lexer.ComesTo unclosed.toList [⟨.identifier "c", ⟨0, 1⟩⟩] false
      ⟨1, Literal.Form.string.opening ++ ['\\', '"']⟩ := by
    have hsplit : unclosed.toList = 'c' :: ['"', '\\', '"'] := by decide
    have hstep : Lexer.step true 0 'c' ['"', '\\', '"'] =
        .ok ⟨some (.identifier "c"), ⟨1, ['"', '\\', '"']⟩, false⟩ := by decide +kernel
    rw [hsplit]
    exact .token .start hstep rfl
  have hunclosedOpens : Literal.Form.string.OpensBefore ['\\', '"'] :=
    (by decide : ¬['"', '"'] <+: ['\\', '"'])
  refine ⟨⟨hraw, hrawOpens, hrawCloses, ?_⟩, hunclosed, hunclosedOpens, ?_⟩
  · exact ((tokenize_literal hraw hrawOpens).1 _ _ _ (by decide) hrawCloses).1
  · refine (tokenize_literal hunclosed hunclosedOpens).2 ?_
    rintro ⟨inside, _, behind, heq, @⟨_, _, h⟩⟩
    -- The quote stands behind one backslash, so it is none that closes.
    rcases inside with - | ⟨c, - | ⟨d, more⟩⟩
    · exact absurd (List.cons.inj heq).1 (by decide)
    · obtain rfl : '\\' = c := (List.cons.inj heq).1
      exact h.ends Literal.endsOdd_singleton
    · simp at heq

end DoubleDispatch
