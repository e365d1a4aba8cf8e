import DoubleDispatch.Proofs.Text.Slice
import DoubleDispatch.Source.Location
import Mathlib.Data.List.Basic

/-!
# Offsets and their locations

A location tells a place in a text as well as its offset does: of two places between characters, the
later one has the later location (`Location.ofOffset_identifies`). One more character moves a
location one column on, or to the start of the next line, so every longer prefix of a text ends
later; offsets enter only through the prefixes that they stand behind.
-/

namespace DoubleDispatch

open Text (byteLength takeBytes IsBoundary)

namespace Location

/-- The order in which places are read: by line, and on one line by column. -/
def Precedes (a b : Location) : Prop := a.line < b.line ∨ a.line = b.line ∧ a.column < b.column

namespace Precedes

variable {a b c : Location}

theorem trans (hab : a.Precedes b) (hbc : b.Precedes c) : a.Precedes c := by
  unfold Precedes at *
  omega

/-- A location does not stand before one that shows the same place. -/
theorem ne (h : a.Precedes b) : (a.line, a.column) ≠ (b.line, b.column) := by
  unfold Precedes at h
  rw [Ne, Prod.mk.injEq]
  omega

end Precedes

/-! ### One character on -/

section After

variable (path : String) (s : List Char)

/-- Behind a line break, the next line starts. -/
theorem after_append_lineBreak :
    after path (s ++ ['\n']) = ⟨path, (after path s).line + 1, 1⟩ := by
  simp [after]

/-- Behind any other character, the line goes on. -/
theorem after_append_singleton {c : Char} (hc : c ≠ '\n') :
    after path (s ++ [c]) = ⟨path, (after path s).line, (after path s).column + 1⟩ := by
  simp [after, hc]

theorem precedes_after_append_singleton (c : Char) :
    (after path s).Precedes (after path (s ++ [c])) := by
  by_cases hc : c = '\n'
  · rw [hc, after_append_lineBreak]
    exact .inl (Nat.lt_succ_self _)
  · rw [after_append_singleton path s hc]
    exact .inr ⟨rfl, Nat.lt_succ_self _⟩

/-- **A longer prefix ends later.** -/
theorem precedes_after_append {later : List Char} (h : later ≠ []) :
    (after path s).Precedes (after path (s ++ later)) := by
  induction later generalizing s with
  | nil => exact absurd rfl h
  | cons c later ih =>
    have hstep := precedes_after_append_singleton path s c
    rw [List.append_cons]
    rcases later with - | ⟨d, later⟩
    · rwa [List.append_nil]
    · exact hstep.trans (ih (s ++ [c]) (List.cons_ne_nil d later))

end After

theorem line_after (path : String) (s : List Char) : (after path s).line = s.count '\n' + 1 := rfl

/-- Characters behind the last line break are counted. -/
theorem column_after {path : String} {front row : List Char}
    (hfront : ∀ c ∈ front.getLast?, c = '\n') (hrow : '\n' ∉ row) :
    (after path (front ++ row)).column = row.length + 1 := by
  have hbehind : front.reverse.takeWhile (· != '\n') = [] := by
    rcases List.eq_nil_or_concat front with rfl | ⟨front, c, rfl⟩
    · rfl
    · obtain rfl : c = '\n' := hfront c (by simp)
      simp
  have hall : ∀ c ∈ row.reverse, (c != '\n') = true := by
    intro c hc
    rw [bne_iff_ne]
    rintro rfl
    exact hrow (List.mem_reverse.1 hc)
  rw [after, List.reverse_append, List.takeWhile_append_of_pos hall, hbehind, List.append_nil,
    List.length_reverse]

/-! ### Offsets -/

section Offset

variable {path source : String} {before behind : List Char}

/-- The location of an offset between characters follows the text before it. -/
theorem ofOffset_byteLength (h : source.toList = before ++ behind) :
    ofOffset path source (byteLength before) = after path before := by
  rw [ofOffset, h, Text.takeBytes_append]

/-- An offset inside a character stands for its start. -/
theorem ofOffset_inside {c : Char} {n : Nat} (h : source.toList = before ++ c :: behind)
    (hn : n < c.utf8Size) :
    ofOffset path source (byteLength before + n) = ofOffset path source (byteLength before) := by
  have hnone : takeBytes n (c :: behind) = [] := if_neg (Nat.not_le.2 hn)
  rw [ofOffset_byteLength h, ofOffset, h, Text.takeBytes_byteLength_add, hnone, List.append_nil]

/-- An offset behind the end stands for the end. -/
theorem ofOffset_of_le {n : Nat} (h : source.utf8ByteSize ≤ n) :
    ofOffset path source n = ofOffset path source source.utf8ByteSize := by
  obtain ⟨k, rfl⟩ := Nat.exists_eq_add_of_le h
  have hall : takeBytes (byteLength source.toList + k) source.toList = source.toList := by
    simpa [takeBytes] using Text.takeBytes_byteLength_add k source.toList []
  rw [← Text.byteLength_toList, ofOffset, hall, ofOffset_byteLength (List.append_nil _).symm]

/-- The later of two offsets between characters has the later location. -/
theorem precedes_ofOffset {a b : Nat} (ha : IsBoundary source.toList a)
    (hb : IsBoundary source.toList b) (hab : a < b) :
    (ofOffset path source a).Precedes (ofOffset path source b) := by
  obtain ⟨front, back, hfront, rfl⟩ := ha
  obtain ⟨before, behind, hbefore, rfl⟩ := hb
  rw [ofOffset_byteLength hfront, ofOffset_byteLength hbefore]
  -- The text before the first offset is a part of that before the second one, and shorter.
  rcases List.append_eq_append_iff.1 (hfront.symm.trans hbefore) with ⟨middle, rfl, -⟩ |
    ⟨middle, rfl, -⟩
  · refine precedes_after_append path front ?_
    rintro rfl
    rw [List.append_nil] at hab
    exact Nat.lt_irrefl _ hab
  · rw [Text.byteLength_append] at hab
    omega

end Offset

/-- **Locations identify offsets.** Of two offsets between characters the later one has the later
location, so that no two of them share one. The line counts the line breaks before an offset, and
the column the characters behind the last of them, both from one. An offset inside a character has
the location of its start, and one behind the end that of the end. -/
theorem ofOffset_identifies (path source : String) :
    (∀ a b, IsBoundary source.toList a → IsBoundary source.toList b → a < b →
      (ofOffset path source a).Precedes (ofOffset path source b)) ∧
    (∀ a b, IsBoundary source.toList a → IsBoundary source.toList b → a ≠ b →
      ((ofOffset path source a).line, (ofOffset path source a).column) ≠
        ((ofOffset path source b).line, (ofOffset path source b).column)) ∧
    (∀ before behind, source.toList = before ++ behind →
      let l := ofOffset path source (byteLength before)
      l.line = before.count '\n' + 1 ∧
      ∀ front row, before = front ++ row → (∀ c ∈ front.getLast?, c = '\n') → '\n' ∉ row →
        l.column = row.length + 1) ∧
    (∀ before c behind n, source.toList = before ++ c :: behind → n < c.utf8Size →
      ofOffset path source (byteLength before + n) =
        ofOffset path source (byteLength before)) ∧
    ∀ n, source.utf8ByteSize ≤ n →
      ofOffset path source n = ofOffset path source source.utf8ByteSize := by
  refine ⟨fun _ _ ↦ precedes_ofOffset, fun a b ha hb hne ↦ ?_, fun before behind h ↦ ?_,
    fun _ _ _ _ ↦ ofOffset_inside, fun _ ↦ ofOffset_of_le⟩
  · rcases Nat.lt_or_gt_of_ne hne with hlt | hlt
    · exact (precedes_ofOffset ha hb hlt).ne
    · exact (precedes_ofOffset hb ha hlt).ne.symm
  · intro l
    have hl : l = after path before := ofOffset_byteLength h
    refine ⟨by rw [hl, line_after], ?_⟩
    rintro front row rfl hfront hrow
    rw [hl, column_after hfront hrow]

/-- The first line ends in a character of two bytes, and the offset 2 lies inside it. -/
theorem ofOffset_identifies_sample :
    let source := "aé\nbc"
    source.toList = ['a', 'é', '\n', 'b'] ++ ['c'] ∧
      (ofOffset "t.cs" source 1).Precedes (ofOffset "t.cs" source 3) ∧
      ((ofOffset "t.cs" source 3).line, (ofOffset "t.cs" source 3).column) ≠
        ((ofOffset "t.cs" source 4).line, (ofOffset "t.cs" source 4).column) ∧
      (ofOffset "t.cs" source 5).column = 2 ∧
      ofOffset "t.cs" source 2 = ofOffset "t.cs" source 1 ∧
      ofOffset "t.cs" source 40 = ofOffset "t.cs" source 6 := by
  intro source
  obtain ⟨hprecedes, hdiffer, hformula, hinside, hbehind⟩ := ofOffset_identifies "t.cs" source
  have hsource : source.toList = ['a', 'é', '\n', 'b'] ++ ['c'] := by decide
  have hsize : source.utf8ByteSize = 6 := by decide
  have hfirst : IsBoundary source.toList 1 := ⟨['a'], ['é', '\n', 'b', 'c'], by decide, rfl⟩
  have hsecond : IsBoundary source.toList 3 := ⟨['a', 'é'], ['\n', 'b', 'c'], by decide, rfl⟩
  have hthird : IsBoundary source.toList 4 := ⟨['a', 'é', '\n'], ['b', 'c'], by decide, rfl⟩
  have hlast : ∀ c ∈ ['a', 'é', '\n'].getLast?, c = '\n' := by
    rintro c ⟨⟩
    rfl
  refine ⟨hsource, hprecedes 1 3 hfirst hsecond (by decide),
    hdiffer 3 4 hsecond hthird (by decide), ?_, ?_, ?_⟩
  · exact (hformula _ _ hsource).2 ['a', 'é', '\n'] ['b'] rfl hlast (by decide)
  · exact hinside ['a'] 'é' ['\n', 'b', 'c'] 1 (by decide) (by decide)
  · rw [← hsize]
    exact hbehind 40 (by rw [hsize]; decide)

end Location

end DoubleDispatch
