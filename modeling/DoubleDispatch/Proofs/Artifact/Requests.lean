import DoubleDispatch.Proofs.Artifact.Names
import Mathlib.Data.List.Induction

/-!
# Names in a row of requests

One table of names serves any number of requests: reservations, which succeed or not, and claims,
which always end with a name. What each answer has to be is said here by the file names granted
before it alone (`IsDue`), without the table. After any row of requests the next answer is the one
that is due, and no two granted names agree, letter case not counting
(`isDue_answer_serveAll`).

The table is tied to the granted names by one equation, which every request keeps (`Records`): the
table holds their lower cases, the latest first.
-/

namespace DoubleDispatch

/-- What is asked of a table of names. -/
inductive NameRequest where
  | reserve (base : String)
  | claim (candidates : List String)
deriving DecidableEq, Repr

/-- What a table of names answers. -/
inductive NameAnswer where
  | reserved (success : Bool)
  | claimed (fileName : String)
deriving DecidableEq, Repr

namespace ArtifactNames

/-! ### Serving requests -/

/-- The answer to a request, and the names behind it. -/
def answer (names : ArtifactNames) : NameRequest → NameAnswer × ArtifactNames
  | .reserve base => (.reserved (names.reserve base).1, (names.reserve base).2)
  | .claim candidates => (.claimed (names.claim candidates).1, (names.claim candidates).2)

/-- The file name that an answer to a request grants, if it grants one. -/
def grantedBy? (names : ArtifactNames) : NameRequest → NameAnswer → Option String
  | .reserve base, .reserved true => some (names.fileName base)
  | .claim _, .claimed fileName => some fileName
  | _, _ => none

/-- The names after a request, and the file names granted so far, in order. -/
def serve (state : ArtifactNames × List String) (request : NameRequest) :
    ArtifactNames × List String :=
  let (answer, names) := state.1.answer request
  (names, state.2 ++ (names.grantedBy? request answer).toList)

/-- The names after requests to a table that is empty at first, and the file names granted to them,
in order. -/
def serveAll (extension : String) (requests : List NameRequest) : ArtifactNames × List String :=
  requests.foldl serve (empty extension, [])

/-! ### Answers that are due -/

section

variable (extension : String) (granted : List String)

/-- One of the granted file names is that of the base, letter case not counting. -/
def IsTaken (base : String) : Prop :=
  ∃ name ∈ granted, Text.toLowercase name = Text.toLowercase (base ++ ".g." ++ extension)

/-- The base that the candidates call for: the first that is not taken, or else the last one with
the least number from two on that makes it one. -/
inductive IsCalledFor (candidates : List String) : String → Prop
  | candidate {before behind : List String} {base : String}
      (split : candidates = before ++ base :: behind)
      (taken : ∀ other ∈ before, IsTaken extension granted other)
      (free : ¬IsTaken extension granted base) : IsCalledFor candidates base
  | number {last : String} {n : Nat} (taken : ∀ other ∈ candidates, IsTaken extension granted other)
      (isLast : last = candidates.getLast?.getD "artifact") (two_le : 2 ≤ n)
      (least : ∀ m, 2 ≤ m → m < n → IsTaken extension granted (numbered last m))
      (free : ¬IsTaken extension granted (numbered last n)) :
      IsCalledFor candidates (numbered last n)

/-- The answer to a request that is due once the given file names are granted. -/
inductive IsDue : NameRequest → NameAnswer → Prop
  | reserve {base : String} {success : Bool}
      (iff : success = true ↔ ¬IsTaken extension granted base) :
      IsDue (.reserve base) (.reserved success)
  | claim {candidates : List String} {base : String}
      (calledFor : IsCalledFor extension granted candidates base) :
      IsDue (.claim candidates) (.claimed (base ++ ".g." ++ extension))

end

/-! ### What the table records -/

/-- The table has an extension, and holds the lower cases of the granted file names, which all
differ. -/
structure Records (extension : String) (granted : List String) (names : ArtifactNames) : Prop where
  extension_eq : names.extension = extension
  taken_eq : names.taken = (granted.map Text.toLowercase).reverse
  pairwise : granted.Pairwise fun first later ↦
    Text.toLowercase first ≠ Text.toLowercase later

namespace Records

variable {extension : String} {granted : List String} {names : ArtifactNames}

theorem empty (extension : String) : Records extension [] (.empty extension) where
  extension_eq := rfl
  taken_eq := rfl
  pairwise := .nil

theorem fileName_eq (h : Records extension granted names) (base : String) :
    names.fileName base = base ++ ".g." ++ extension := by
  rw [fileName, h.extension_eq]

theorem isFree_iff (h : Records extension granted names) (base : String) :
    names.isFree base = true ↔ ¬IsTaken extension granted base := by
  rw [names.isFree_iff, key, h.fileName_eq, h.taken_eq, List.mem_reverse, List.mem_map, IsTaken]

/-- **A free name is taken.** -/
theorem take (h : Records extension granted names) {base : String}
    (hfree : names.isFree base = true) :
    Records extension (granted ++ [names.fileName base]) (names.take base) where
  extension_eq := h.extension_eq
  taken_eq := by
    rw [List.map_append, List.reverse_append, ← h.taken_eq]
    rfl
  pairwise := by
    refine List.pairwise_append.2 ⟨h.pairwise, List.pairwise_singleton _ _, ?_⟩
    intro name hname later hlater hkey
    rw [List.mem_singleton.1 hlater, h.fileName_eq] at hkey
    exact (h.isFree_iff base).1 hfree ⟨name, hname, hkey⟩

/-- **The chosen base is the one that the candidates call for.** -/
theorem isCalledFor_choose (h : Records extension granted names) (candidates : List String) :
    IsCalledFor extension granted candidates (names.choose candidates) := by
  have htaken {base : String} (hnot : ¬names.isFree base = true) :
      IsTaken extension granted base := not_not.1 fun hfree ↦ hnot ((h.isFree_iff base).2 hfree)
  rw [choose]
  split
  next base hbase =>
    obtain ⟨hfree, before, behind, hsplit, hbefore⟩ := List.find?_eq_some_iff_append.1 hbase
    refine .candidate hsplit (fun other hother ↦ htaken ?_) ((h.isFree_iff base).1 hfree)
    simpa using hbefore other hother
  next hnone =>
    obtain ⟨number, hmem, hfree⟩ := names.exists_free_number (candidates.getLast?.getD "artifact")
    rcases hfind : names.numbers.find? fun n ↦
        names.isFree (numbered (candidates.getLast?.getD "artifact") n) with - | n
    · exact absurd hfree (List.find?_eq_none.1 hfind number hmem)
    · obtain ⟨hfree, hn, hleast⟩ := List.find?_range'_eq_some.1 hfind
      dsimp only
      rw [hfind, Option.getD_some]
      refine .number (fun other hother ↦ htaken (List.find?_eq_none.1 hnone other hother)) rfl
        (List.mem_range'_1.1 hn).1 (fun m hm hlt ↦ htaken ?_) ((h.isFree_iff _).1 hfree)
      simpa using hleast m hm hlt

/-- **One request**: the answer is due, and what it grants is recorded. -/
theorem serve (h : Records extension granted names) (request : NameRequest) :
    IsDue extension granted request (names.answer request).1 ∧
      Records extension (ArtifactNames.serve (names, granted) request).2
        (ArtifactNames.serve (names, granted) request).1 := by
  cases request with
  | reserve base =>
    by_cases hfree : names.isFree base = true
    · have hreserve : names.reserve base = (true, names.take base) := if_pos hfree
      rw [ArtifactNames.serve, answer, hreserve]
      exact ⟨.reserve (by simpa using (h.isFree_iff base).1 hfree), h.take hfree⟩
    · have hreserve : names.reserve base = (false, names) := if_neg hfree
      rw [ArtifactNames.serve, answer, hreserve]
      refine ⟨.reserve (by simpa [h.isFree_iff] using hfree), ?_⟩
      show Records extension (granted ++ []) names
      rwa [List.append_nil]
  | claim candidates =>
    refine ⟨?_, h.take (names.isFree_choose candidates)⟩
    have hdue := IsDue.claim (h.isCalledFor_choose candidates)
    rwa [← h.fileName_eq] at hdue

/-- **Any row of requests.** -/
theorem serveAll (extension : String) (requests : List NameRequest) :
    Records extension (ArtifactNames.serveAll extension requests).2
      (ArtifactNames.serveAll extension requests).1 := by
  induction requests using List.reverseRecOn with
  | nil => exact .empty extension
  | append_singleton requests request ih =>
    rw [ArtifactNames.serveAll, List.foldl_append]
    exact (ih.serve request).2

end Records

/-- **Every answer is the one that is due**, and granted names differ, even if only ASCII letters
are folded. -/
theorem isDue_answer_serveAll (extension : String) (requests : List NameRequest) :
    let (names, granted) := serveAll extension requests
    (∀ request, IsDue extension granted request (names.answer request).1) ∧
      granted.Pairwise (fun first later ↦ Text.toLowercase first ≠ Text.toLowercase later) ∧
      granted.Pairwise fun first later ↦
        first.toList.map Char.toLower ≠ later.toList.map Char.toLower := by
  have hrecords := Records.serveAll extension requests
  exact ⟨fun request ↦ (hrecords.serve request).1, hrecords.pairwise,
    hrecords.pairwise.imp fun hne heq ↦ hne (Text.toLowercase_congr_toLower heq)⟩

/-- Four claims for one type and a reservation in other letters. -/
example : (serveAll "cs" [.reserve "circle", .claim ["Circle", "A.Circle"],
    .claim ["Circle", "A.Circle"], .claim ["Circle", "A.Circle"], .reserve "a.CIRCLE"]).2 =
      ["circle.g.cs", "A.Circle.g.cs", "A.Circle.2.g.cs", "A.Circle.3.g.cs"] := by
  decide +kernel

end ArtifactNames

end DoubleDispatch
