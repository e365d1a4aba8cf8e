import DoubleDispatch.Proofs.Text.Lowercase
import DoubleDispatch.Text.Identifier

/-!
# What identifiers are made of

No character of an identifier is white space, and none at its start is a digit or a mark. So the
first character of a word says that a word starts there, and a text that starts and ends with
characters of words or marks has nothing to trim.
-/

namespace DoubleDispatch.Text

/-! ### Characters -/

/-- The code points of a set of characters. -/
def CodeRanges.codes (ranges : CodeRanges) : List Nat :=
  ranges.intervals.flatMap fun r ↦ List.range' r.1 (r.2 + 1 - r.1)

/-- A character in the ranges is among the codes they list. -/
theorem CodeRanges.mem_codes {ranges : CodeRanges} {c : Char} (h : ranges.contains c) :
    c.toNat ∈ ranges.codes := by
  obtain ⟨intervals⟩ := ranges
  simp only [contains, codes] at h ⊢
  induction intervals with
  | nil => cases h
  | cons r intervals ih =>
    obtain ⟨first, last⟩ := r
    simp only [holds, Bool.and_eq_true, Bool.or_eq_true, decide_eq_true_eq] at h
    rw [List.flatMap_cons, List.mem_append]
    rcases h with ⟨hfirst, hlast | hrest⟩
    · left
      rw [List.mem_range'_1]
      omega
    · exact .inr (ih hrest)

/-- White space ends a word. -/
theorem continuesIdentifier_of_isBlank {c : Char} (h : isBlank c) :
    continuesIdentifier c = false := by
  have hcodes : ∀ n ∈ blankRanges.codes, n ≠ '_'.toNat ∧
      CodeRanges.holds n alphabeticRanges.intervals = false ∧
      CodeRanges.holds n numericRanges.intervals = false := by decide +kernel
  obtain ⟨hunderscore, halphabetic, hnumeric⟩ := hcodes _ (CodeRanges.mem_codes h)
  have hc : c ≠ '_' := by
    rintro rfl
    exact hunderscore rfl
  rw [continuesIdentifier, isAlphabetic, isNumeric, CodeRanges.contains, CodeRanges.contains,
    halphabetic, hnumeric]
  simpa using hc

/-- No character of an identifier is a blank. -/
theorem isBlank_of_continuesIdentifier {c : Char} (h : continuesIdentifier c) :
    isBlank c = false := by
  by_cases hc : isBlank c
  · rw [continuesIdentifier_of_isBlank hc] at h
    cases h
  · simpa using hc

/-- A word does not start with a digit. -/
theorem isDigit_of_startsIdentifier {c : Char} (h : startsIdentifier c) : c.isDigit = false := by
  have hranges : ∀ r ∈ alphabeticRanges.intervals, 57 < r.1 := by decide +kernel
  by_cases hc : c.isDigit
  · have hunderscore : c ≠ '_' := by
      rintro rfl
      cases hc
    have halphabetic : isAlphabetic c = false := holds_eq_false fun r hr ↦
      .inr (Nat.lt_of_le_of_lt (toNat_of_isDigit hc).2 (hranges r hr))
    simp [startsIdentifier, hunderscore, halphabetic] at h
  · simpa using hc

/-- A word may go on with a digit. -/
theorem continuesIdentifier_of_isDigit {c : Char} (h : c.isDigit) : continuesIdentifier c := by
  obtain ⟨hfirst, hlast⟩ := toNat_of_isDigit h
  have hnumeric : isNumeric c := by
    rw [isNumeric, CodeRanges.contains, numericRanges, CodeRanges.holds]
    simp [hfirst, hlast]
  rw [continuesIdentifier, hnumeric, Bool.or_true]

theorem ne_of_startsIdentifier {c d : Char} (h : startsIdentifier c)
    (hd : startsIdentifier d = false) : c ≠ d := by
  rintro rfl
  rw [h] at hd
  cases hd

/-! ### Identifiers -/

theorem isIdentifier_cons {c : Char} {s : List Char} :
    isIdentifier (c :: s) ↔ startsIdentifier c ∧ ∀ d ∈ s, continuesIdentifier d := by
  simp [isIdentifier]

/-- An identifier is a character that starts one and characters that continue it. -/
theorem exists_cons_of_isIdentifier {s : List Char} (h : isIdentifier s) :
    ∃ c t, s = c :: t ∧ startsIdentifier c ∧ ∀ d ∈ t, continuesIdentifier d := by
  cases s with
  | nil => cases h
  | cons c s => exact ⟨c, s, rfl, isIdentifier_cons.1 h⟩

/-- Every character of an identifier may continue one, the first included. -/
theorem continuesIdentifier_of_isIdentifier {s : List Char} (h : isIdentifier s) :
    ∀ c ∈ s, continuesIdentifier c := by
  obtain ⟨c, t, rfl, hc, ht⟩ := exists_cons_of_isIdentifier h
  exact List.forall_mem_cons.2 ⟨continuesIdentifier_of_startsIdentifier hc, ht⟩

/-- A word with more characters of words behind it is a word. -/
theorem isIdentifier_append {s t : List Char} (h : isIdentifier s)
    (ht : ∀ c ∈ t, continuesIdentifier c) : isIdentifier (s ++ t) := by
  obtain ⟨c, s, rfl, hc, hs⟩ := exists_cons_of_isIdentifier h
  refine isIdentifier_cons.2 ⟨hc, fun d hd ↦ ?_⟩
  rcases List.mem_append.1 hd with hd | hd
  · exact hs d hd
  · exact ht d hd

/-! ### Trimming -/

/-- A text that starts and ends with visible characters has nothing to trim. -/
theorem trim_eq_self {s : List Char} (hhead : ∀ c ∈ s.head?, isBlank c = false)
    (hlast : ∀ c ∈ s.getLast?, isBlank c = false) : trim s = s := by
  have hdrop {t : List Char} (h : ∀ c ∈ t.head?, isBlank c = false) : t.dropWhile isBlank = t := by
    cases t with
    | nil => rfl
    | cons c t => exact List.dropWhile_cons_of_neg (by rw [h c rfl]; nofun)
  rw [trim, hdrop hhead, trimEnd, hdrop, List.reverse_reverse]
  rwa [List.head?_reverse]

end DoubleDispatch.Text
