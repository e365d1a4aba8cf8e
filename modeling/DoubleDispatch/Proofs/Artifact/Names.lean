import DoubleDispatch.Artifact.Names
import DoubleDispatch.Proofs.Text.Lowercase
import Mathlib.Data.List.Nodup
import Mathlib.Data.List.Perm.Subperm

/-!
# Granted names

Whoever claims a name gets one that is free: a candidate, or else the last candidate with a number
behind it. That a free number exists among those that are tried is a matter of counting, since
different numbers make names with different lower cases (`key_numbered_injective`) and there is one
number more than there are names taken.

So every granted name is new when it is granted and taken from then on, which is what
`toLowercase_claim_notMem` and `taken_claim` record; callers need nothing else about names.
-/

namespace DoubleDispatch

namespace ArtifactNames

variable (names : ArtifactNames)

theorem toList_fileName_numbered (base : String) (n : Nat) :
    (names.fileName (numbered base n)).toList =
      base.toList ++ '.' :: (Nat.toDigits 10 n ++ (".g." ++ names.extension).toList) := by
  simp [fileName, numbered]

/-- **Different numbers make different names**, letter case not counting. -/
theorem key_numbered_injective (base : String) {m n : Nat}
    (h : names.key (numbered base m) = names.key (numbered base n)) : m = n := by
  obtain ⟨first, last, hnumber⟩ :=
    Text.exists_lowerAfter_number base.toList (".g." ++ names.extension).toList
  have hkey (k : Nat) :
      (names.key (numbered base k)).toList = first ++ Nat.toDigits 10 k ++ last := by
    rw [key, Text.toLowercase, String.toList_ofList, toList_fileName_numbered]
    exact hnumber _ Nat.toDigits_ne_nil fun c hc ↦
      Nat.isDigit_of_mem_toDigits (by decide) (by decide) hc
  have hlist := congrArg String.toList h
  rw [hkey, hkey] at hlist
  have hdigits := List.append_cancel_left (List.append_cancel_right hlist)
  have hvalue := congrArg (fun digits ↦ Nat.ofDigitChars 10 digits 0) hdigits
  simpa using hvalue

theorem isFree_iff (base : String) : names.isFree base = true ↔ names.key base ∉ names.taken := by
  simp [isFree]

/-- One of the numbers that are tried is free, since there are more of them than taken names. -/
theorem exists_free_number (base : String) :
    ∃ n ∈ names.numbers, names.isFree (numbered base n) = true := by
  by_contra hnone
  simp only [not_exists, not_and, isFree_iff, not_not] at hnone
  have hnodup : (names.numbers.map fun n ↦ names.key (numbered base n)).Nodup :=
    List.Nodup.map (fun _ _ h ↦ names.key_numbered_injective base h) (List.nodup_range' 1)
  have hsub : (names.numbers.map fun n ↦ names.key (numbered base n)) ⊆ names.taken := by
    intro key hkey
    obtain ⟨n, hn, rfl⟩ := List.mem_map.1 hkey
    exact hnone n hn
  -- All numbers would make taken names, but there is one number more than there are of these.
  have hlength := (hnodup.subperm hsub).length_le
  simp only [numbers, List.length_map, List.length_range'] at hlength
  omega

/-- **The chosen base is free.** -/
theorem isFree_choose (candidates : List String) :
    names.isFree (names.choose candidates) = true := by
  rw [choose]
  split
  next base hbase => exact List.find?_some hbase
  next hnone =>
    obtain ⟨n, hn, hfree⟩ := names.exists_free_number (candidates.getLast?.getD "artifact")
    rcases hk : names.numbers.find? fun n ↦
        names.isFree (numbered (candidates.getLast?.getD "artifact") n) with - | k
    · exact absurd hfree (List.find?_eq_none.1 hk n hn)
    · have hfound := List.find?_some hk
      simpa [hk] using hfound

/-! ### Claims -/

/-- A granted name was not taken. -/
theorem toLowercase_claim_notMem (candidates : List String) :
    Text.toLowercase (names.claim candidates).1 ∉ names.taken :=
  (names.isFree_iff _).1 (names.isFree_choose candidates)

/-- A granted name is taken from then on, and no other name is. -/
theorem taken_claim (candidates : List String) :
    (names.claim candidates).2.taken =
      Text.toLowercase (names.claim candidates).1 :: names.taken := rfl

/-- Reserving the first name of all takes its lower case. -/
theorem taken_reserve_empty (extension base : String) :
    ((empty extension).reserve base).2.taken =
      [Text.toLowercase ((empty extension).fileName base)] := rfl

end ArtifactNames

end DoubleDispatch
