import DoubleDispatch.Proofs.Binding.TypeName
import Mathlib.Data.List.TakeWhile

/-!
# Texts without their white space

What is visible of a text are its characters that are no white space. Trimming a text changes
nothing of that, and to divide a text at marks comes to the same with its white space and without
it.
-/

namespace DoubleDispatch

namespace Text

/-- The characters of a text that are no white space. -/
def visible (s : List Char) : List Char := s.filter fun c ↦ !isBlank c

variable {c : Char} {s t : List Char}

@[simp] theorem visible_nil : visible [] = [] := rfl

@[simp] theorem visible_append (s t : List Char) : visible (s ++ t) = visible s ++ visible t :=
  List.filter_append ..

/-- A text without blanks is visible as it is. -/
theorem visible_eq_self (h : ∀ c ∈ s, isBlank c = false) : visible s = s :=
  List.filter_eq_self.2 fun c hc ↦ by rw [h c hc]; rfl

/-- Of a text of blanks nothing is visible. -/
theorem visible_eq_nil (h : ∀ c ∈ s, isBlank c) : visible s = [] :=
  List.filter_eq_nil_iff.2 fun c hc ↦ by rw [h c hc]; exact Bool.noConfusion

theorem isBlank_of_mem_visible (h : c ∈ visible s) : isBlank c = false := by
  simpa using (List.mem_filter.1 h).2

theorem visible_cons_of_isBlank (h : isBlank c) (s : List Char) : visible (c :: s) = visible s :=
  List.filter_cons_of_neg (by simp [h])

theorem visible_cons (h : isBlank c = false) (s : List Char) :
    visible (c :: s) = c :: visible s :=
  List.filter_cons_of_pos (by simp [h])

/-- A trimmed text ends with a visible character. -/
theorem isBlank_of_getLast?_trimEnd (h : c ∈ (trimEnd s).getLast?) : isBlank c = false := by
  have hhead := List.head?_dropWhile_not isBlank s.reverse
  rw [trimEnd, List.getLast?_reverse, Option.mem_def] at h
  rw [h] at hhead
  simpa using hhead

@[simp] theorem visible_dropWhile (s : List Char) : visible (s.dropWhile isBlank) = visible s := by
  induction s with
  | nil => rfl
  | cons c s ih =>
    by_cases hc : isBlank c
    · rw [List.dropWhile_cons_of_pos hc, ih, visible_cons_of_isBlank hc]
    · rw [List.dropWhile_cons_of_neg hc]

@[simp] theorem visible_trimEnd (s : List Char) : visible (trimEnd s) = visible s := by
  have hreverse (t : List Char) : visible t.reverse = (visible t).reverse := List.filter_reverse ..
  rw [trimEnd, hreverse, visible_dropWhile, hreverse, List.reverse_reverse]

/-- Blanks around a text are not seen. -/
@[simp] theorem visible_trim (s : List Char) : visible (trim s) = visible s := by
  rw [trim, visible_trimEnd, visible_dropWhile]

/-- An identifier with white space around it is all that is visible. -/
theorem visible_eq_trim (h : isIdentifier (trim s)) : visible s = trim s := by
  rw [← visible_trim, visible_eq_self]
  exact fun c hc ↦ isBlank_of_continuesIdentifier (continuesIdentifier_of_isIdentifier h c hc)

/-- There are no blanks around what is visible. -/
@[simp] theorem trim_visible (s : List Char) : trim (visible s) = visible s :=
  trim_eq_self (fun _ hc ↦ isBlank_of_mem_visible (List.mem_of_head? hc))
    fun _ hc ↦ isBlank_of_mem_visible (List.mem_of_getLast? hc)

@[simp] theorem trimEnd_visible (s : List Char) : trimEnd (visible s) = visible s := by
  have htrim := trim_visible s
  rwa [trim, List.dropWhile_eq_self_iff.2] at htrim
  intro hlength
  simpa using isBlank_of_mem_visible (List.getElem_mem hlength)

/-- A final character is the same without white space if it is visible. -/
theorem stripSuffix?_visible (hlast : ∀ d ∈ s.getLast?, isBlank d = false) :
    stripSuffix? c (visible s) = (stripSuffix? c s).map visible := by
  obtain rfl | ⟨t, d, rfl⟩ := List.eq_nil_or_concat s
  · rfl
  · have hd : isBlank d = false := hlast d (by simp)
    have hvisible : visible (t ++ [d]) = visible t ++ [d] := by
      rw [visible_append, visible_cons hd, visible_nil]
    rw [List.concat_eq_append, hvisible, stripSuffix?, stripSuffix?]
    by_cases heq : d = c <;> simp [heq]

theorem ne_of_isBlank {d : Char} (hd : isBlank d) (hc : isBlank c = false) : d ≠ c := by
  rintro rfl
  rw [hc] at hd
  cases hd

/-- No visible character stands in a gap. -/
theorem notMem_of_blank (h : ∀ d ∈ s, isBlank d) (hc : isBlank c = false) : c ∉ s :=
  fun hmem ↦ ne_of_isBlank (h c hmem) hc rfl

theorem forall_bne_of_notMem (h : c ∉ s) : ∀ d ∈ s, (d != c) = true := by
  intro d hd
  rw [bne_iff_ne]
  rintro rfl
  exact h hd

/-- A text is divided at its first mark, or there is none in it. -/
theorem splitOnce?_cases (c : Char) (s : List Char) :
    (c ∉ s ∧ splitOnce? [c] s = none) ∨ ∃ before behind, s = before ++ c :: behind ∧ c ∉ before ∧
      splitOnce? [c] s = some (before, behind) := by
  by_cases hmem : c ∈ s
  · obtain ⟨before, behind, rfl, hbefore⟩ := List.eq_append_cons_of_mem hmem
    exact .inr ⟨before, behind, rfl, hbefore, splitOnce?_append hbefore⟩
  · exact .inl ⟨hmem, splitOnce?_eq_none hmem⟩

/-- What does not occur is not visible. -/
theorem notMem_visible (h : c ∉ s) : c ∉ visible s := fun hmem ↦ h (List.mem_of_mem_filter hmem)

/-- A text is divided at the same mark, with the same characters on both sides. -/
theorem splitOnce?_visible (hc : isBlank c = false) (s : List Char) :
    splitOnce? [c] (visible s) = (splitOnce? [c] s).map (Prod.map visible visible) := by
  obtain ⟨hmem, hnone⟩ | ⟨before, behind, rfl, hbefore, hsome⟩ := splitOnce?_cases c s
  · rw [hnone, splitOnce?_eq_none (notMem_visible hmem)]
    rfl
  · rw [hsome, visible_append, visible_cons hc, splitOnce?_append (notMem_visible hbefore)]
    rfl

/-- The parts between marks have the same characters. -/
theorem split_visible (hc : isBlank c = false) (s : List Char) :
    split c (visible s) = (split c s).map visible := by
  induction s with
  | nil => rfl
  | cons d s ih =>
    obtain ⟨part, parts, hparts⟩ : ∃ part parts, split c s = part :: parts := by
      rw [split_eq_splitOn]
      exact List.exists_cons_of_ne_nil (List.splitOnP_ne_nil _ s)
    by_cases hd : isBlank d
    · rw [visible_cons_of_isBlank hd, ih, split, if_neg (ne_of_isBlank hd hc), hparts]
      simp [visible_cons_of_isBlank hd]
    · have hd : isBlank d = false := by simpa using hd
      rw [visible_cons hd, split, split, ih, hparts]
      split
      · rfl
      · simp [visible_cons hd]

/-- What stands in front of the first mark belongs to the first part. -/
theorem split_append_of_notMem {first : List Char} {later : List (List Char)} (hs : c ∉ s)
    (ht : split c t = first :: later) : split c (s ++ t) = (s ++ first) :: later := by
  induction s with
  | nil => exact ht
  | cons d s ih =>
    rw [List.mem_cons, not_or] at hs
    rw [List.cons_append, split, if_neg (Ne.symm hs.1), ih hs.2]
    rfl

/-- Blanks are cut off behind a text that does not end with one. -/
theorem trimEnd_append (hlast : ∀ c ∈ s.getLast?, isBlank c = false) (t : List Char) :
    trimEnd (s ++ t) = s ++ trimEnd t := by
  have hdrop : s.reverse.dropWhile isBlank = s.reverse := by
    rw [← List.head?_reverse] at hlast
    cases hreverse : s.reverse with
    | nil => rfl
    | cons c t =>
      rw [hreverse] at hlast
      exact List.dropWhile_cons_of_neg (by rw [hlast c rfl]; nofun)
  rw [trimEnd, List.reverse_append, List.dropWhile_append, hdrop]
  split
  next hempty =>
    rw [List.reverse_reverse, trimEnd, List.isEmpty_iff.1 hempty]
    simp
  next => simp [trimEnd]

/-- What is visible of a text in one piece is the trimmed text. -/
theorem trim_append {gap word gap' : List Char} (hne : word ≠ [])
    (hword : ∀ c ∈ word, isBlank c = false) (hgap : ∀ c ∈ gap, isBlank c)
    (hgap' : ∀ c ∈ gap', isBlank c) : trim (gap ++ (word ++ gap')) = word := by
  have hdrop : (word ++ gap').dropWhile isBlank = word ++ gap' := by
    obtain ⟨c, later, rfl⟩ := List.exists_cons_of_ne_nil hne
    exact List.dropWhile_cons_of_neg (by rw [hword c List.mem_cons_self]; nofun)
  have hnone : trimEnd gap' = [] := by
    rw [trimEnd, List.dropWhile_eq_nil_iff.2 fun c hc ↦ hgap' c (List.mem_reverse.1 hc)]
    rfl
  rw [trim, List.dropWhile_append_of_pos hgap, hdrop,
    trimEnd_append fun c hc ↦ hword c (List.mem_of_getLast? hc), hnone, List.append_nil]

end Text

end DoubleDispatch
