import DoubleDispatch.Text.Slice

/-!
# Boundaries between characters

A byte offset is a boundary of a text if it is the length of a prefix of it (`IsBoundary`). Only
there may the text be cut, and a cut at the length of a prefix gives back that prefix and the rest.
-/

namespace DoubleDispatch.Text

@[simp] theorem byteLength_nil : byteLength [] = 0 := rfl

@[simp] theorem byteLength_cons (c : Char) (s : List Char) :
    byteLength (c :: s) = c.utf8Size + byteLength s := rfl

/-- The bytes of texts put together are the bytes of each. -/
@[simp] theorem byteLength_append (s t : List Char) :
    byteLength (s ++ t) = byteLength s + byteLength t := by
  induction s with
  | nil => simp
  | cons c s ih => rw [List.cons_append, byteLength_cons, byteLength_cons, ih, Nat.add_assoc]

/-- The length in bytes is that of the text as a string. -/
theorem byteLength_toList (s : String) : byteLength s.toList = s.utf8ByteSize := by
  have hlist (s : List Char) : (String.ofList s).utf8ByteSize = byteLength s := by
    induction s with
    | nil => rfl
    | cons c s ih =>
      have hcons : String.ofList (c :: s) = String.singleton c ++ String.ofList s := by
        rw [← String.toList_inj]
        simp
      rw [hcons, String.utf8ByteSize_append, ih, byteLength_cons, String.utf8ByteSize_singleton]
  rw [← hlist, String.ofList_toList]

/-- A text that is not empty has a byte. -/
theorem byteLength_pos {s : List Char} (h : s ≠ []) : 0 < byteLength s := by
  obtain ⟨c, s, rfl⟩ := List.exists_cons_of_ne_nil h
  exact Nat.add_pos_left c.utf8Size_pos _

theorem eq_nil_of_byteLength_eq_zero {s : List Char} (h : byteLength s = 0) : s = [] := by
  by_cases hs : s = []
  · exact hs
  · exact absurd h (Nat.ne_of_gt (byteLength_pos hs))

/-- Decimal digits, letters and other characters of ASCII take one byte. -/
theorem utf8Size_eq_one {c : Char} (h : c.toNat < 128) : c.utf8Size = 1 := by
  rw [Char.utf8Size_eq_one_iff, UInt32.le_iff_toNat_le]
  exact Nat.le_of_lt_succ h

/-! ### Cuts -/

theorem takeBytes_zero (s : List Char) : takeBytes 0 s = [] := by
  cases s with
  | nil => rfl
  | cons c s => exact if_neg (Nat.not_le.2 c.utf8Size_pos)

/-- What is left behind a prefix does not depend on the prefix. -/
theorem dropBytes_byteLength_add (n : Nat) (s t : List Char) :
    dropBytes (byteLength s + n) (s ++ t) = dropBytes n t := by
  induction s with
  | nil => rw [byteLength_nil, Nat.zero_add, List.nil_append]
  | cons c s ih =>
    rw [List.cons_append, dropBytes, byteLength_cons, if_pos (by omega), ← ih]
    congr 1
    omega

/-- What is cut off behind a prefix does not depend on the prefix. -/
theorem takeBytes_byteLength_add (n : Nat) (s t : List Char) :
    takeBytes (byteLength s + n) (s ++ t) = s ++ takeBytes n t := by
  have hcut := takeBytes_append_dropBytes (byteLength s + n) (s ++ t)
  rw [dropBytes_byteLength_add] at hcut
  have hlater : s ++ takeBytes n t ++ dropBytes n t = s ++ t := by
    rw [List.append_assoc, takeBytes_append_dropBytes]
  exact List.append_cancel_right (hcut.trans hlater.symm)

/-- What is cut off at the length of a prefix is that prefix. -/
theorem takeBytes_append (s t : List Char) : takeBytes (byteLength s) (s ++ t) = s := by
  have hcut := takeBytes_byteLength_add 0 s t
  rwa [Nat.add_zero, takeBytes_zero, List.append_nil] at hcut

/-- Dropping the bytes of a text leaves what stands behind it. -/
theorem dropBytes_append (s t : List Char) : dropBytes (byteLength s) (s ++ t) = t := by
  have hcut := takeBytes_append_dropBytes (byteLength s) (s ++ t)
  rw [takeBytes_append] at hcut
  exact List.append_cancel_left hcut

/-- A part in the middle is the slice between the lengths of what ends before and behind it. -/
theorem slice_append (before s behind : List Char) :
    slice (byteLength before) (byteLength before + byteLength s) (before ++ (s ++ behind)) = s := by
  rw [slice, dropBytes_append, Nat.add_sub_cancel_left, takeBytes_append]

/-- Dropping up to the end of a prefix leaves what is behind it. -/
theorem dropBytes_append_of_le {n : Nat} {s : List Char} (h : n ≤ byteLength s) (t : List Char) :
    dropBytes n (s ++ t) = dropBytes n s ++ t := by
  induction s generalizing n with
  | nil =>
    obtain rfl : n = 0 := Nat.le_zero.1 h
    exact dropBytes_append [] t
  | cons c s ih =>
    rw [List.cons_append, dropBytes, dropBytes]
    split
    · exact ih (by rw [byteLength_cons] at h; omega)
    · rfl

/-- Bytes taken from within a text do not see what stands behind it. -/
theorem takeBytes_append_of_le {n : Nat} {s : List Char} (h : n ≤ byteLength s) (t : List Char) :
    takeBytes n (s ++ t) = takeBytes n s := by
  induction s generalizing n with
  | nil =>
    obtain rfl : n = 0 := Nat.le_zero.1 h
    exact takeBytes_append [] t
  | cons c s ih =>
    rw [List.cons_append, takeBytes, takeBytes]
    split
    · rw [ih (by rw [byteLength_cons] at h; omega)]
    · rfl

/-- No more bytes are taken than asked for, fewer where a character would be cut. -/
theorem byteLength_takeBytes_le (n : Nat) (s : List Char) : byteLength (takeBytes n s) ≤ n := by
  induction s generalizing n with
  | nil => exact Nat.zero_le n
  | cons c s ih =>
    rw [takeBytes]
    split
    next hc =>
      have := ih (n - c.utf8Size)
      rw [byteLength_cons]
      omega
    next => exact Nat.zero_le n

/-- A slice of a prefix does not depend on what is behind it. -/
theorem slice_append_of_le {n m : Nat} {s : List Char} (hn : n ≤ byteLength s)
    (hm : m ≤ byteLength s) (t : List Char) : slice n m (s ++ t) = slice n m s := by
  have hcut := congrArg byteLength (takeBytes_append_dropBytes n s)
  have htake := byteLength_takeBytes_le n s
  rw [byteLength_append] at hcut
  rw [slice, slice, dropBytes_append_of_le hn, takeBytes_append_of_le]
  omega

/-- A slice behind a prefix does not depend on the prefix. -/
theorem slice_byteLength_add (n m : Nat) (s t : List Char) :
    slice (byteLength s + n) (byteLength s + m) (s ++ t) = slice n m t := by
  rw [slice, slice, dropBytes_byteLength_add, Nat.add_sub_add_left]

/-! ### Boundaries -/

/-- An offset at which a text falls into two. -/
def IsBoundary (s : List Char) (n : Nat) : Prop :=
  ∃ before behind, s = before ++ behind ∧ byteLength before = n

namespace IsBoundary

theorem zero (s : List Char) : IsBoundary s 0 := ⟨[], s, rfl, rfl⟩

theorem byteLength (s : List Char) : IsBoundary s (byteLength s) :=
  ⟨s, [], (List.append_nil s).symm, rfl⟩

/-- A boundary of a text lies within it. -/
theorem le_byteLength {s : List Char} {n : Nat} (h : IsBoundary s n) : n ≤ Text.byteLength s := by
  obtain ⟨before, behind, rfl, rfl⟩ := h
  rw [byteLength_append]
  exact Nat.le_add_right _ _

end IsBoundary

/-- The length of a slice between boundaries. -/
theorem byteLength_slice {s : List Char} {n m : Nat} (hn : IsBoundary s n) (hm : IsBoundary s m)
    (hle : n ≤ m) : byteLength (slice n m s) = m - n := by
  obtain ⟨before, behind, rfl, rfl⟩ := hn
  obtain ⟨front, back, heq, rfl⟩ := hm
  rcases List.append_eq_append_iff.1 heq with ⟨middle, rfl, rfl⟩ | ⟨middle, rfl, rfl⟩
  · rw [byteLength_append, slice_append, Nat.add_sub_cancel_left]
  · have hnone : byteLength front - byteLength (front ++ middle) = 0 :=
      Nat.sub_eq_zero_of_le (by rw [byteLength_append]; exact Nat.le_add_right _ _)
    rw [slice, hnone, takeBytes_zero, byteLength_nil]

end DoubleDispatch.Text
