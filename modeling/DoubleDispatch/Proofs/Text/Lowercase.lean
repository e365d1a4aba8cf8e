import DoubleDispatch.Text.Lowercase
import Mathlib.Data.List.Basic

/-!
# Lowering a text in parts

A letter is lowered by itself, but a capital sigma asks for the letters around it. So the lower
case of a text is the lower case of its parts only where a cut hides nothing from a sigma on the
other side. Two facts make cuts usable: what stands before a text matters only through the question
whether its last visible letter is cased (`lowerAfter_congr`), and what stands behind it only
through the same question about its first one (`exists_lowerAfter_append`).

Decimal digits are lowered to themselves and are neither cased nor passed over, so a number stops
every sigma from seeing what is behind it. A capital letter of ASCII is lowered like its small one
and looks the same to a sigma, so the lower case of a text does not change when only the case of
ASCII letters does (`toLowercase_congr_toLower`).
-/

namespace DoubleDispatch.Text

/-! ### Contexts -/

/-- Characters that case ignores are passed over in the search for a cased one. -/
theorem nextIsCased_cons (c : Char) (s : List Char) :
    nextIsCased (c :: s) = if isCaseIgnorable c then nextIsCased s else isCased c := by
  by_cases h : isCaseIgnorable c
  · rw [nextIsCased, List.dropWhile_cons_of_pos h, if_pos h, nextIsCased]
  · rw [nextIsCased, List.dropWhile_cons_of_neg h, if_neg h]

/-- What stands behind a text matters only through its next cased character. -/
theorem nextIsCased_append_congr {t t' : List Char} (h : nextIsCased t = nextIsCased t')
    (s : List Char) : nextIsCased (s ++ t) = nextIsCased (s ++ t') := by
  induction s with
  | nil => exact h
  | cons c s ih => rw [List.cons_append, List.cons_append, nextIsCased_cons, nextIsCased_cons, ih]

/-- The lower case of one character between two contexts. -/
def lowerBetween (before : List Char) (c : Char) (s : List Char) : List Char :=
  if c = 'Σ' then if nextIsCased before && !nextIsCased s then ['ς'] else ['σ'] else lowerChar c

theorem lowerAfter_cons (before : List Char) (c : Char) (s : List Char) :
    lowerAfter before (c :: s) = lowerBetween before c s ++ lowerAfter (c :: before) s := rfl

/-- The lower case of a character depends on its neighbours only through what is cased next on
either side. -/
theorem lowerBetween_congr {before before' s s' : List Char}
    (hb : nextIsCased before = nextIsCased before') (hs : nextIsCased s = nextIsCased s')
    (c : Char) : lowerBetween before c s = lowerBetween before' c s' := by
  unfold lowerBetween
  rw [hb, hs]

/-- **What stands before** a text matters only through its last visible letter. -/
theorem lowerAfter_congr {before before' : List Char}
    (h : nextIsCased before = nextIsCased before') (s : List Char) :
    lowerAfter before s = lowerAfter before' s := by
  induction s generalizing before before' with
  | nil => rfl
  | cons c s ih =>
    have hc : nextIsCased (c :: before) = nextIsCased (c :: before') := by
      rw [nextIsCased_cons, nextIsCased_cons, h]
    rw [lowerAfter_cons, lowerAfter_cons, lowerBetween_congr h rfl, ih hc]

/-- **What stands behind** a text matters only through its first visible letter. -/
theorem exists_lowerAfter_append {t t' : List Char} (h : nextIsCased t = nextIsCased t')
    (before s : List Char) :
    ∃ lowered, lowerAfter before (s ++ t) = lowered ++ lowerAfter (s.reverse ++ before) t ∧
      lowerAfter before (s ++ t') = lowered ++ lowerAfter (s.reverse ++ before) t' := by
  induction s generalizing before with
  | nil => exact ⟨[], rfl, rfl⟩
  | cons c s ih =>
    obtain ⟨lowered, h₁, h₂⟩ := ih (c :: before)
    refine ⟨lowerBetween before c (s ++ t) ++ lowered, ?_, ?_⟩
    · rw [List.cons_append, lowerAfter_cons, h₁]
      simp
    · rw [List.cons_append, lowerAfter_cons, h₂,
        lowerBetween_congr rfl (nextIsCased_append_congr h s).symm]
      simp

/-! ### Digits -/

theorem toNat_of_isDigit {c : Char} (h : c.isDigit) : 48 ≤ c.toNat ∧ c.toNat ≤ 57 := by
  simp only [Char.isDigit, Bool.and_eq_true, decide_eq_true_eq] at h
  exact ⟨UInt32.le_iff_toNat_le.1 h.1, UInt32.le_iff_toNat_le.1 h.2⟩

theorem holds_eq_false {n : Nat} {intervals : List (Nat × Nat)}
    (h : ∀ r ∈ intervals, r.2 < n ∨ n < r.1) : CodeRanges.holds n intervals = false := by
  induction intervals with
  | nil => rfl
  | cons r intervals ih =>
    obtain ⟨first, last⟩ := r
    have hr := h _ List.mem_cons_self
    have hrest := ih fun r hr ↦ h r (List.mem_cons_of_mem _ hr)
    simp only [CodeRanges.holds, hrest, Bool.or_false, Bool.and_eq_false_iff,
      decide_eq_false_iff_not]
    omega

/-- A digit has no case. -/
theorem isCased_of_isDigit {c : Char} (h : c.isDigit) : isCased c = false := by
  have hranges : ∀ r ∈ casedRanges.intervals, 57 < r.1 := by decide +kernel
  refine holds_eq_false fun r hr ↦ .inr ?_
  exact Nat.lt_of_le_of_lt (toNat_of_isDigit h).2 (hranges r hr)

/-- A digit is not ignored by case. -/
theorem isCaseIgnorable_of_isDigit {c : Char} (h : c.isDigit) : isCaseIgnorable c = false := by
  have hranges : ∀ r ∈ caseIgnorableRanges.intervals, r.2 < 48 ∨ 57 < r.1 := by decide +kernel
  obtain ⟨hc, hc'⟩ := toNat_of_isDigit h
  refine holds_eq_false fun r hr ↦ ?_
  rcases hranges r hr with hr | hr
  · exact .inl (Nat.lt_of_lt_of_le hr hc)
  · exact .inr (Nat.lt_of_le_of_lt hc' hr)

/-- A digit is its own lower case. -/
theorem lowerChar_of_isDigit {c : Char} (h : c.isDigit) : lowerChar c = [c] := by
  have hruns : ∀ run ∈ lowercaseRuns, 57 < run.first := by decide +kernel
  have hdot : c ≠ '\u0130' := by rintro rfl; exact absurd h (by decide)
  have hnone : lowercaseRuns.find? (·.contains c.toNat) = none := by
    rw [List.find?_eq_none]
    intro run hrun
    have hfirst : ¬run.first ≤ c.toNat :=
      Nat.not_le.2 (Nat.lt_of_le_of_lt (toNat_of_isDigit h).2 (hruns run hrun))
    simp [CaseRun.contains, hfirst]
  rw [lowerChar, if_neg hdot, hnone]

/-- Digits are lowered to themselves, whatever stands around them. -/
theorem lowerAfter_digits {digits : List Char} (h : ∀ c ∈ digits, c.isDigit)
    (before s : List Char) :
    lowerAfter before (digits ++ s) = digits ++ lowerAfter (digits.reverse ++ before) s := by
  induction digits generalizing before with
  | nil => rfl
  | cons c digits ih =>
    have hc := h c List.mem_cons_self
    have hsigma : c ≠ 'Σ' := by rintro rfl; exact absurd hc (by decide)
    rw [List.cons_append, lowerAfter_cons, lowerBetween, if_neg hsigma, lowerChar_of_isDigit hc,
      ih (fun d hd ↦ h d (List.mem_cons_of_mem _ hd))]
    simp

/-- Digits hide what is behind them. -/
theorem nextIsCased_digits {digits : List Char} (h : ∀ c ∈ digits, c.isDigit)
    (hne : digits ≠ []) (s : List Char) : nextIsCased (digits ++ s) = false := by
  obtain ⟨c, digits, rfl⟩ := List.exists_cons_of_ne_nil hne
  have hc := h c List.mem_cons_self
  rw [List.cons_append, nextIsCased_cons, isCaseIgnorable_of_isDigit hc, isCased_of_isDigit hc]
  rfl

/-- A dot is passed over. -/
theorem nextIsCased_dot (s : List Char) : nextIsCased ('.' :: s) = nextIsCased s := by
  rw [nextIsCased_cons, if_pos (by decide)]

/-- A dot is its own lower case, whatever stands around it. -/
theorem lowerAfter_dot (before s : List Char) :
    lowerAfter before ('.' :: s) = '.' :: lowerAfter ('.' :: before) s := by
  rw [lowerAfter_cons, lowerBetween, if_neg (by decide),
    show lowerChar '.' = ['.'] by decide]
  rfl

/-- **A number behind a text** is left as it is, and neither side of it sees the other. -/
theorem exists_lowerAfter_number (s t : List Char) :
    ∃ first last, ∀ digits, digits ≠ [] → (∀ c ∈ digits, c.isDigit) →
      lowerAfter [] (s ++ '.' :: (digits ++ t)) = first ++ digits ++ last := by
  have hzero : ∀ c ∈ ['0'], c.isDigit := fun c hc ↦ by rw [List.mem_singleton.1 hc]; rfl
  -- The number `0` stands for all numbers: it fixes how the two sides are lowered.
  obtain ⟨first, hfirst, -⟩ := exists_lowerAfter_append
    (rfl : nextIsCased ('.' :: (['0'] ++ t)) = _) [] s
  refine ⟨first ++ ['.'], lowerAfter [] t, fun digits hne hd ↦ ?_⟩
  have hcased : nextIsCased ('.' :: (['0'] ++ t)) = nextIsCased ('.' :: (digits ++ t)) := by
    rw [nextIsCased_dot, nextIsCased_dot, nextIsCased_digits hzero (by simp),
      nextIsCased_digits hd hne]
  obtain ⟨lowered', h₁, h₂⟩ := exists_lowerAfter_append hcased [] s
  have heq : lowered' = first := List.append_cancel_right (h₁.symm.trans hfirst)
  have hbefore : nextIsCased (digits.reverse ++ ('.' :: (s.reverse ++ []))) = nextIsCased [] :=
    nextIsCased_digits (by simpa using hd) (by simpa using hne) _
  rw [h₂, heq, lowerAfter_dot, lowerAfter_digits hd, lowerAfter_congr hbefore]
  simp

/-! ### ASCII letters -/

/-- The capital letters of ASCII. -/
def asciiCapitals : List Char := (List.range' 65 26).map Char.ofNat

/-- Folding the letters of ASCII changes nothing but these capitals. -/
theorem toLower_eq_self_or_mem (c : Char) : c.toLower = c ∨ c ∈ asciiCapitals := by
  by_cases h : c.toNat ∈ List.range' 65 26
  · exact .inr (List.mem_map.2 ⟨c.toNat, h, Char.ofNat_toNat c⟩)
  · left
    rw [List.mem_range'_1] at h
    have hc : ¬(c.val ≥ 65 ∧ c.val ≤ 90) := fun ⟨hfirst, hlast⟩ ↦
      h ⟨UInt32.le_iff_toNat_le.1 hfirst, Nat.lt_succ_of_le (UInt32.le_iff_toNat_le.1 hlast)⟩
    exact dif_neg hc

/-- A capital of ASCII and its small letter are lowered alike, and look alike to a sigma. -/
theorem lowerChar_toLower (c : Char) :
    lowerChar c.toLower = lowerChar c ∧ isCased c.toLower = isCased c ∧
      isCaseIgnorable c.toLower = isCaseIgnorable c ∧ (c.toLower = 'Σ' ↔ c = 'Σ') := by
  have hcapitals : asciiCapitals.all fun c ↦ lowerChar c.toLower = lowerChar c ∧
      isCased c.toLower = isCased c ∧ isCaseIgnorable c.toLower = isCaseIgnorable c ∧
        (c.toLower = 'Σ' ↔ c = 'Σ') := by decide +kernel
  rcases toLower_eq_self_or_mem c with hc | hc
  · rw [hc]
    exact ⟨rfl, rfl, rfl, Iff.rfl⟩
  · exact of_decide_eq_true (List.all_eq_true.1 hcapitals c hc)

/-- Lower case does not change where the next cased character is. -/
theorem nextIsCased_map_toLower (s : List Char) :
    nextIsCased (s.map Char.toLower) = nextIsCased s := by
  induction s with
  | nil => rfl
  | cons c s ih =>
    obtain ⟨-, hcased, hignorable, -⟩ := lowerChar_toLower c
    rw [List.map_cons, nextIsCased_cons, nextIsCased_cons, hcased, hignorable, ih]

/-- Lowering ASCII letters first does not change the lower case of a text. -/
theorem lowerAfter_map_toLower (before s : List Char) :
    lowerAfter (before.map Char.toLower) (s.map Char.toLower) = lowerAfter before s := by
  induction s generalizing before with
  | nil => rfl
  | cons c s ih =>
    obtain ⟨hlower, -, -, hsigma⟩ := lowerChar_toLower c
    rw [List.map_cons, lowerAfter_cons, lowerAfter_cons, ← List.map_cons, ih, lowerBetween,
      lowerBetween, hlower, nextIsCased_map_toLower, nextIsCased_map_toLower]
    simp only [hsigma]

/-- **Texts that agree up to the case of ASCII letters have one lower case.** -/
theorem toLowercase_congr_toLower {s t : String}
    (h : s.toList.map Char.toLower = t.toList.map Char.toLower) :
    toLowercase s = toLowercase t := by
  have hs := lowerAfter_map_toLower [] s.toList
  have ht := lowerAfter_map_toLower [] t.toList
  rw [toLowercase, toLowercase, ← hs, ← ht, h]

end DoubleDispatch.Text
