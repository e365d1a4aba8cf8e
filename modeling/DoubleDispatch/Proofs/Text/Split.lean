import DoubleDispatch.Binding.Scope
import Mathlib.Data.List.SplitBy

/-!
# Joined texts

The parts of a text between separators and the text of joined parts are inverse to each other. A
joined text is its first part with the later ones behind it, each behind a separator of its own.
-/

namespace DoubleDispatch

/-- A joined text is its first part with a separator before each of the later ones. -/
theorem toList_intercalate_cons (sep part : String) (parts : List String) :
    (sep.intercalate (part :: parts)).toList =
      part.toList ++ parts.flatMap fun later ↦ sep.toList ++ later.toList := by
  induction parts generalizing part with
  | nil => simp
  | cons later parts ih =>
    rw [String.intercalate_cons_cons, String.toList_append, String.toList_append, ih,
      List.flatMap_cons, List.append_assoc, List.append_assoc]

namespace Text

/-! ### Segments -/

/-- The split of the program is the split of lists of the library. -/
theorem split_eq_splitOn (sep : Char) (s : List Char) : split sep s = s.splitOn sep := by
  induction s with
  | nil => rfl
  | cons c s ih =>
    have hparts : s.splitOn sep ≠ [] := List.splitOnP_ne_nil _ s
    rw [split, ih]
    show _ = List.splitOnP (· == sep) (c :: s)
    rw [List.splitOnP_cons_eq_if_modifyHead]
    by_cases hc : c = sep
    · rw [if_pos hc, if_pos (beq_iff_eq.2 hc)]
      rfl
    · rw [if_neg hc, if_neg (by simpa using hc)]
      obtain ⟨part, parts, hsplit⟩ := List.exists_cons_of_ne_nil hparts
      rw [hsplit]
      show _ = List.modifyHead (List.cons c) (s.splitOn sep)
      rw [hsplit]
      rfl

/-- A text without the separator is its only part. -/
theorem split_of_notMem {sep : Char} {s : List Char} (h : sep ∉ s) : split sep s = [s] := by
  rw [split_eq_splitOn, List.splitOn_eq_singleton h]

/-- The mark stands in none of the parts. -/
theorem notMem_of_mem_split {sep : Char} {s part : List Char} (h : part ∈ split sep s) :
    sep ∉ part := by
  induction s generalizing part with
  | nil =>
    rw [split, List.mem_singleton] at h
    rw [h]
    exact List.not_mem_nil
  | cons c s ih =>
    rw [split] at h
    split at h
    next =>
      rcases List.mem_cons.1 h with rfl | h
      · exact List.not_mem_nil
      · exact ih h
    next hc =>
      have hsep {later : List Char} (hlater : sep ∉ later) : sep ∉ c :: later :=
        List.not_mem_cons_of_ne_of_not_mem (Ne.symm hc) hlater
      split at h
      next first parts hsplit =>
        rw [hsplit] at ih
        rcases List.mem_cons.1 h with rfl | h
        · exact hsep (ih List.mem_cons_self)
        · exact ih (List.mem_cons_of_mem _ h)
      next =>
        rw [List.mem_singleton] at h
        rw [h]
        exact hsep List.not_mem_nil

/-- A text is split at each separator by itself: what stands before it and what stands behind it. -/
theorem split_append_cons (sep : Char) (s t : List Char) :
    split sep (s ++ sep :: t) = split sep s ++ split sep t := by
  simp only [split_eq_splitOn]
  exact List.splitOn_append_cons_self s t

/-! ### Words -/

/-- A text without blanks is its only word. -/
theorem words_of_visible {s : List Char} (hne : s ≠ []) (h : ∀ c ∈ s, isBlank c = false) :
    words s = [s] := by
  have hsplit : s.splitBy (fun c d ↦ isBlank c == isBlank d) = [s] := by
    refine List.splitBy_of_isChain hne (List.Pairwise.isChain ?_)
    refine List.pairwise_of_forall_mem_list fun c hc d hd ↦ ?_
    rw [h c hc, h d hd]
    rfl
  obtain ⟨c, t, rfl⟩ := List.exists_cons_of_ne_nil hne
  rw [words, hsplit]
  simp [h c List.mem_cons_self]

/-- White space between visible characters divides the words before it from those behind it. -/
theorem words_append_blank {s t : List Char} {c : Char}
    (hs : ∀ d ∈ s.getLast?, isBlank d = false) (hc : isBlank c)
    (ht : ∀ d ∈ t.head?, isBlank d = false) : words (s ++ c :: t) = words s ++ words t := by
  have hbefore : ∀ d ∈ s.getLast?, (isBlank d == isBlank c) = false := by
    intro d hd
    rw [hs d hd, hc]
    rfl
  have hbehind : ∀ d ∈ [c].getLast?, ∀ e ∈ t.head?, (isBlank d == isBlank e) = false := by
    intro d hd e he
    obtain rfl : c = d := Option.some.inj hd
    rw [ht e he, hc]
    rfl
  have hblank : List.splitBy (fun c d ↦ isBlank c == isBlank d) [c] = [[c]] :=
    List.splitBy_of_isChain (List.cons_ne_nil c []) (.singleton c)
  have hcons := List.splitBy_append hbehind
  rw [List.singleton_append, hblank] at hcons
  rw [words, List.splitBy_append_cons t hbefore, hcons, List.filter_append, List.filter_append]
  simp [words, hc]

/-- Words joined by blanks are read back. -/
theorem words_intercalate {parts : List String}
    (h : ∀ part ∈ parts, part ≠ "" ∧ ∀ c ∈ part.toList, isBlank c = false) :
    words (" ".intercalate parts).toList = parts.map String.toList := by
  induction parts with
  | nil => rfl
  | cons part parts ih =>
    obtain ⟨⟨hne, hpart⟩, hlater⟩ := List.forall_mem_cons.1 h
    have hwords : words part.toList = [part.toList] :=
      words_of_visible (fun hnil ↦ hne (String.toList_eq_nil_iff.1 hnil)) hpart
    cases parts with
    | nil => simpa using hwords
    | cons later parts =>
      obtain ⟨⟨hlaterNe, hvisible⟩, -⟩ := List.forall_mem_cons.1 hlater
      have hhead : ∀ c ∈ (" ".intercalate (later :: parts)).toList.head?, isBlank c = false := by
        obtain ⟨c, s, hs⟩ := List.exists_cons_of_ne_nil
          fun hnil ↦ hlaterNe (String.toList_eq_nil_iff.1 hnil)
        rw [toList_intercalate_cons, hs]
        rintro d ⟨⟩
        exact hvisible c (hs ▸ List.mem_cons_self)
      have hlast : ∀ c ∈ part.toList.getLast?, isBlank c = false :=
        fun c hc ↦ hpart c (List.mem_of_getLast? hc)
      rw [String.intercalate_cons_cons, String.toList_append, String.toList_append,
        List.append_assoc]
      show words (part.toList ++ ' ' :: (" ".intercalate (later :: parts)).toList) = _
      have hspace : isBlank ' ' := by decide
      rw [words_append_blank hlast hspace hhead, hwords, ih hlater]
      rfl

end Text

namespace Level

theorem segments_ne_nil (name : String) : segments name ≠ [] := by
  rw [segments, Text.split_eq_splitOn, Ne, List.map_eq_nil_iff]
  exact List.splitOnP_ne_nil _ _

/-- A dotted name is its segments joined. -/
theorem intercalate_segments (name : String) : ".".intercalate (segments name) = name := by
  have hid : String.toList ∘ String.ofList = id := funext fun _ ↦ String.toList_ofList
  apply String.toList_injective
  rw [String.toList_intercalate, segments, List.map_map, hid, List.map_id, Text.split_eq_splitOn]
  exact List.intercalate_splitOn '.'

end Level

end DoubleDispatch
