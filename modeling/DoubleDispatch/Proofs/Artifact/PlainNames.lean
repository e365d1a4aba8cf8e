import DoubleDispatch.Delivery
import DoubleDispatch.Proofs.Artifact.Names
import DoubleDispatch.Proofs.Binding.Namespaces
import DoubleDispatch.Proofs.Path
import DoubleDispatch.Settings
import DoubleDispatch.SourceSearch

/-!
# Names of generated files

The base of a file name consists of characters of identifiers and dots, and starts like an
identifier (`IsFileBase`). Dotted names are such bases, two bases with a dot between them are one,
and numbers behind a base keep it one; so whoever offers bases as candidates gets one
(`ArtifactNames.isFileBase_choose`).

With an extension that the settings accept, such a base makes a file name that is one segment of a
path and that the search for sources and the cleaning of a directory both tell to be generated
(`IsGeneratedName`).
-/

namespace DoubleDispatch

/-! ### Bases -/

/-- The text starts like an identifier, and goes on with characters of identifiers and dots. -/
def IsFileBase (base : String) : Prop :=
  ∃ c s, base.toList = c :: s ∧ Text.startsIdentifier c ∧
    ∀ d ∈ s, Text.continuesIdentifier d ∨ d = '.'

namespace IsFileBase

/-- Every character of a base is one of identifiers or a dot. -/
theorem forall_mem {base : String} (h : IsFileBase base) :
    ∀ c ∈ base.toList, Text.continuesIdentifier c ∨ c = '.' := by
  obtain ⟨c, s, hcons, hc, hs⟩ := h
  rw [hcons]
  exact List.forall_mem_cons.2 ⟨.inl (Text.continuesIdentifier_of_startsIdentifier hc), hs⟩

theorem notMem {base : String} (h : IsFileBase base) {c : Char}
    (hc : Text.continuesIdentifier c = false) (hdot : c ≠ '.') : c ∉ base.toList := by
  intro hmem
  rcases h.forall_mem c hmem with hcontinues | rfl
  · rw [hc] at hcontinues
    cases hcontinues
  · exact hdot rfl

theorem of_isIdentifier {name : String} (h : Text.isIdentifier name.toList) : IsFileBase name := by
  obtain ⟨c, s, hcons, hc, hs⟩ := Text.exists_cons_of_isIdentifier h
  exact ⟨c, s, hcons, hc, fun d hd ↦ .inl (hs d hd)⟩

theorem of_isDotted {name : String}
    (h : IsDotted (fun word ↦ Text.isIdentifier word.toList) name) : IsFileBase name := by
  obtain ⟨words, hne, hwords, rfl⟩ := h
  obtain ⟨c, s, hcons, hc⟩ := Reference.exists_cons_of_segments hne hwords
  refine ⟨c, s, hcons, hc, fun d hd ↦ ?_⟩
  exact Reference.mem_intercalate_dot hwords (hcons ▸ List.mem_cons_of_mem c hd)

/-- A base with more characters of identifiers and dots behind it is a base. -/
theorem append {base later : String} (h : IsFileBase base)
    (hlater : ∀ c ∈ later.toList, Text.continuesIdentifier c ∨ c = '.') :
    IsFileBase (base ++ later) := by
  obtain ⟨c, s, hcons, hc, hs⟩ := h
  refine ⟨c, s ++ later.toList, by simp [hcons], hc, ?_⟩
  exact List.forall_mem_append.2 ⟨hs, hlater⟩

/-- Two bases with a dot between them are a base. -/
theorem dot {base later : String} (h : IsFileBase base) (hlater : IsFileBase later) :
    IsFileBase (base ++ "." ++ later) :=
  (h.append (by simp)).append hlater.forall_mem

/-- **A base with a number behind it is a base.** -/
theorem numbered {base : String} (h : IsFileBase base) (n : Nat) :
    IsFileBase (ArtifactNames.numbered base n) := by
  refine (h.append (by simp)).append fun c hc ↦ .inl (Text.continuesIdentifier_of_isDigit ?_)
  rw [Nat.toString_eq_repr, Nat.toList_repr] at hc
  exact Nat.isDigit_of_mem_toDigits (by decide) (by decide) hc

end IsFileBase

/-- **What a claimant gets is a base**, if all its candidates are. -/
theorem ArtifactNames.isFileBase_choose (names : ArtifactNames) {candidates : List String}
    (h : ∀ base ∈ candidates, IsFileBase base) : IsFileBase (names.choose candidates) := by
  have hlast : IsFileBase (candidates.getLast?.getD "artifact") := by
    cases hcandidates : candidates.getLast? with
    | none => exact .of_isIdentifier (by decide)
    | some last => exact h last (List.mem_of_getLast? hcandidates)
  rw [choose]
  split
  next base hbase => exact h base (List.mem_of_find?_eq_some hbase)
  next => exact hlast.numbered _

/-! ### File names -/

/-- What an accepted extension does not hold. -/
theorem Settings.notMem_of_validate {settings : Settings} (h : settings.validate = .ok ())
    {c : Char} (hc : mayStandInExtension c = false) : c ∉ settings.extension.toList := by
  rw [validate] at h
  split at h
  · cases h
  next haccepted =>
    simp only [Bool.or_eq_true, Bool.not_eq_true', not_or, Bool.not_eq_false] at haccepted
    intro hmem
    rw [List.all_eq_true.1 haccepted.2 c hmem] at hc
    cases hc

/-- The extension is what stands behind the last dot. -/
theorem FileName.splitExtension_append_dot {stem extension : List Char} (hstem : stem ≠ [])
    (hdot : '.' ∉ extension) :
    splitExtension (stem ++ '.' :: extension) = (stem, some extension) := by
  have htake : (extension.reverse ++ '.' :: stem.reverse).takeWhile (· ≠ '.') =
      extension.reverse := by
    rw [List.takeWhile_append_of_pos, List.takeWhile_cons_of_neg (by simp), List.append_nil]
    intro c hc
    have hne : c ≠ '.' := by
      rintro rfl
      exact hdot (List.mem_reverse.1 hc)
    simpa using hne
  have hreverse : (stem ++ '.' :: extension).reverse =
      extension.reverse ++ '.' :: stem.reverse := by simp
  obtain ⟨c, s, hcons⟩ := List.exists_cons_of_ne_nil (List.reverse_ne_nil_iff.2 hstem)
  simp only [splitExtension]
  rw [hreverse, htake, List.drop_left, hcons]
  simp [← hcons]

/-- The file name was generated for an extension: a base of identifiers and dots, the mark of
generated files and the extension. -/
structure IsGeneratedFile (extension name : String) : Prop where
  base : ∃ base, IsFileBase base ∧ name = base ++ ".g." ++ extension
  /-- The extension holds no dot and no separator of paths. -/
  noMark : ∀ c ∈ ['.', '/', '\\'], c ∉ extension.toList

namespace IsGeneratedFile

variable {extension name : String}

theorem of_isFileBase {settings : Settings} (hsettings : settings.validate = .ok ())
    {base : String} (h : IsFileBase base) :
    IsGeneratedFile settings.extension (base ++ ".g." ++ settings.extension) where
  base := ⟨base, h, rfl⟩
  noMark c hc := by
    have hmarks : ['.', '/', '\\'].all fun c ↦ Settings.mayStandInExtension c = false := by
      decide
    exact Settings.notMem_of_validate hsettings (of_decide_eq_true (List.all_eq_true.1 hmarks c hc))

/-- There is no separator of paths in the name. -/
theorem notMem (h : IsGeneratedFile extension name) {c : Char} (hc : c ∈ ['/', '\\']) :
    c ∉ name.toList := by
  obtain ⟨base, hbase, rfl⟩ := h.base
  have hmarks : ['/', '\\'].all fun c ↦
      Text.continuesIdentifier c = false ∧ c ≠ '.' ∧ c ∉ ".g.".toList := by decide
  obtain ⟨hword, hdot, hg⟩ := of_decide_eq_true (List.all_eq_true.1 hmarks c hc)
  simp only [String.toList_append, List.mem_append, not_or]
  exact ⟨⟨hbase.notMem hword hdot, hg⟩, h.noMark c (List.mem_cons_of_mem _ hc)⟩

/-- The name is one segment of a path, and leads somewhere. -/
theorem isEntryName (h : IsGeneratedFile extension name) : IsEntryName name := by
  have hg : 'g' ∈ name.toList := by
    obtain ⟨base, -, rfl⟩ := h.base
    simp
  refine ⟨h.notMem List.mem_cons_self, ?_, ?_, ?_⟩
  all_goals
    rintro rfl
    revert hg
    decide

/-- **The search for sources tells that the file is none**, whatever its extension. -/
theorem isSourceName (h : IsGeneratedFile extension name) :
    SourceSearch.isSourceName name.toList = false := by
  obtain ⟨base, hbase, rfl⟩ := h.base
  obtain ⟨c, s, hcons, -⟩ := hbase
  have hname : (base ++ ".g." ++ extension).toList =
      (base.toList ++ '.' :: ['g']) ++ '.' :: extension.toList := by simp
  have hne : base.toList ≠ [] := hcons ▸ List.cons_ne_nil c s
  have hstem : FileName.stem (base ++ ".g." ++ extension).toList = base.toList ++ '.' :: ['g'] := by
    rw [FileName.stem, hname, FileName.splitExtension_append_dot (by simp)
      (h.noMark '.' List.mem_cons_self)]
  have hg : FileName.hasExtension "g" (base.toList ++ '.' :: ['g']) = true := by
    rw [FileName.hasExtension, FileName.extension?,
      FileName.splitExtension_append_dot hne (by decide)]
    rfl
  rw [SourceSearch.isSourceName, hstem, hg, Bool.not_true, Bool.and_false]

theorem isSource_child (h : IsGeneratedFile extension name) (directory : Path) :
    SourceSearch.isSource (directory.child name) = false := by
  rw [SourceSearch.isSource, directory.name?_child h.isEntryName, Option.any_some, h.isSourceName]

/-- **The cleaning of a directory tells that the file was generated.** -/
theorem isGeneratedName (h : IsGeneratedFile extension name) :
    Delivery.isGeneratedName extension name = true := by
  obtain ⟨base, -, rfl⟩ := h.base
  rw [Delivery.isGeneratedName, Delivery.suffix, List.isSuffixOf_iff_suffix]
  exact ⟨base.toList, by simp⟩

end IsGeneratedFile

end DoubleDispatch
