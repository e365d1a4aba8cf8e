import DoubleDispatch.Proofs.Binding.Lookup

/-!
# Written type names

A type name is a row of identifiers with dots between them, and behind it may be type arguments in
angle brackets. Without a double colon it is read as these identifiers and the number of its
arguments (`Reference.parse?_of_isTypeName`).
-/

namespace DoubleDispatch

/-! ### Marks in texts -/

namespace Text

/-- A text is divided at a mark if its first character stands nowhere before. -/
theorem splitOnce?_append {c : Char} {before behind : List Char} (h : c ∉ before) :
    splitOnce? [c] (before ++ c :: behind) = some (before, behind) := by
  induction before with
  | nil =>
    rw [List.nil_append, splitOnce?, if_pos (by simp)]
    rfl
  | cons d before ih =>
    rw [List.mem_cons, not_or] at h
    rw [List.cons_append, splitOnce?, List.isPrefixOf_cons_cons, beq_eq_false_iff_ne.2 h.1, ih h.2]
    rfl

/-- A mark that does not occur divides nothing. -/
theorem splitOnce?_eq_none_of_not_infix {mark s : List Char} (hmark : mark ≠ [])
    (h : ¬mark <:+: s) : splitOnce? mark s = none := by
  induction s with
  | nil => rw [splitOnce?, if_neg (by simpa using hmark)]
  | cons c s ih =>
    have hprefix : ¬mark.isPrefixOf (c :: s) = true := fun hp ↦
      h (List.isPrefixOf_iff_prefix.1 hp).isInfix
    rw [splitOnce?, if_neg hprefix, ih fun hs ↦ h (hs.trans (List.suffix_cons c s).isInfix)]
    rfl

end Text

namespace Reference

/-- A text without blanks at its ends and without a question mark behind it is taken as it stands.
-/
theorem withoutMark_eq_self {s : List Char} (hhead : ∀ c ∈ s.head?, Text.isBlank c = false)
    (hlast : ∀ c ∈ s.getLast?, Text.isBlank c = false) (hmark : s.getLast? ≠ some '?') :
    withoutMark s = s := by
  have htrim := Text.trim_eq_self hhead hlast
  rw [withoutMark, htrim, Text.stripSuffix?, if_neg hmark, Option.getD_none]
  cases s with
  | nil => rfl
  | cons c s =>
    rwa [Text.trim, List.dropWhile_cons_of_neg (Bool.eq_false_iff.1 (hhead c rfl))] at htrim

/-! ### Dotted names -/

variable {segments : List String}

theorem exists_cons_of_segments (hne : segments ≠ [])
    (h : ∀ segment ∈ segments, Text.isIdentifier segment.toList) :
    ∃ c s, (".".intercalate segments).toList = c :: s ∧ Text.startsIdentifier c := by
  obtain ⟨first, later, rfl⟩ := List.exists_cons_of_ne_nil hne
  obtain ⟨c, s, hfirst, hc, -⟩ := Text.exists_cons_of_isIdentifier (h first List.mem_cons_self)
  rw [toList_intercalate_cons, hfirst]
  exact ⟨c, _, rfl, hc⟩

/-- The characters of identifiers joined by dots are those of identifiers and dots. -/
theorem mem_intercalate_dot (h : ∀ segment ∈ segments, Text.isIdentifier segment.toList)
    {c : Char} (hc : c ∈ (".".intercalate segments).toList) :
    Text.continuesIdentifier c ∨ c = '.' := by
  have hsegment {segment : String} (hmem : segment ∈ segments) (hc : c ∈ segment.toList) :
      Text.continuesIdentifier c :=
    Text.continuesIdentifier_of_isIdentifier (h segment hmem) c hc
  cases segments with
  | nil => cases hc
  | cons first later =>
    rw [toList_intercalate_cons, List.mem_append, List.mem_flatMap] at hc
    rcases hc with hc | ⟨segment, hmem, hc⟩
    · exact .inl (hsegment List.mem_cons_self hc)
    · rcases List.mem_cons.1 hc with rfl | hc
      · exact .inr rfl
      · exact .inl (hsegment (List.mem_cons_of_mem _ hmem) hc)

theorem notMem_intercalate_dot (h : ∀ segment ∈ segments, Text.isIdentifier segment.toList)
    {c : Char} (hc : Text.continuesIdentifier c = false) (hdot : c ≠ '.') :
    c ∉ (".".intercalate segments).toList := by
  intro hmem
  rcases mem_intercalate_dot h hmem with hcontinues | rfl
  · rw [hc] at hcontinues
    cases hcontinues
  · exact hdot rfl

/-- Identifiers joined by dots have no blank. -/
theorem isBlank_of_mem_intercalate_dot
    (h : ∀ segment ∈ segments, Text.isIdentifier segment.toList)
    {c : Char} (hc : c ∈ (".".intercalate segments).toList) : Text.isBlank c = false := by
  rcases mem_intercalate_dot h hc with hcontinues | rfl
  · exact Text.isBlank_of_continuesIdentifier hcontinues
  · decide

/-- Identifiers with dots between them are divided at the dots again. -/
theorem split_intercalate_dot (hne : segments ≠ [])
    (h : ∀ segment ∈ segments, Text.isIdentifier segment.toList) :
    Text.split '.' (".".intercalate segments).toList = segments.map String.toList := by
  have hdots : ∀ part ∈ segments.map String.toList, '.' ∉ part := by
    intro part hpart
    obtain ⟨segment, hsegment, rfl⟩ := List.mem_map.1 hpart
    exact Text.notMem_of_isIdentifier (h segment hsegment) (by decide)
  rw [Text.split_eq_splitOn, String.toList_intercalate]
  exact List.splitOn_intercalate '.' hdots (by simpa using hne)

/-- There is nothing to trim around the segments. -/
theorem map_split_intercalate_dot (hne : segments ≠ [])
    (h : ∀ segment ∈ segments, Text.isIdentifier segment.toList) :
    (Text.split '.' (".".intercalate segments).toList).map Text.trim =
      segments.map String.toList := by
  rw [split_intercalate_dot hne h, List.map_map]
  exact List.map_congr_left fun segment hsegment ↦ Text.trim_of_isIdentifier (h segment hsegment)

/-! ### Type names -/

/-- The text is a type name with these segments and this number of type arguments, and has no double
colon in it. -/
inductive IsTypeName : String → List String → Nat → Prop
  | dotted {segments : List String} (hne : segments ≠ [])
      (h : ∀ segment ∈ segments, Text.isIdentifier segment.toList) :
    IsTypeName (".".intercalate segments) segments 0
  | generic {segments : List String} {arguments : String} {arity : Nat} (hne : segments ≠ [])
      (h : ∀ segment ∈ segments, Text.isIdentifier segment.toList)
      (hcount : argumentCount? 0 1 arguments.toList = some arity)
      (hcolon : ¬[':', ':'] <:+: (".".intercalate segments ++ "<" ++ arguments ++ ">").toList) :
    IsTypeName (".".intercalate segments ++ "<" ++ arguments ++ ">") segments arity

/-- A reference is read from its name and arity once these are told apart. -/
theorem parse?_of_nameAndArity? {text : String} {name : List Char} {arity : Nat}
    (hne : segments ≠ []) (h : ∀ segment ∈ segments, Text.isIdentifier segment.toList)
    (hqualifier : qualifierAndName (withoutMark text.toList) = (.plain, name))
    (hname : nameAndArity? name = some ((".".intercalate segments).toList, arity)) :
    parse? text = some ⟨.plain, segments, arity⟩ := by
  have hid : String.ofList ∘ String.toList = id := funext fun _ ↦ String.ofList_toList
  have hall : (segments.map String.toList).all Text.isIdentifier = true := by simpa using h
  rw [parse?, hqualifier]
  dsimp only
  rw [hname]
  dsimp only
  rw [map_split_intercalate_dot hne h, if_pos hall, List.map_map, hid, List.map_id]

/-- The characters of a generic name: the name, and the arguments in angles. -/
theorem toList_generic {arguments : String} :
    (".".intercalate segments ++ "<" ++ arguments ++ ">").toList =
      (".".intercalate segments).toList ++ '<' :: (arguments.toList ++ ['>']) := by
  simp

/-- There is nothing to leave out around a name with type arguments. -/
theorem withoutMark_generic (hne : segments ≠ [])
    (h : ∀ segment ∈ segments, Text.isIdentifier segment.toList) {arguments : String} :
    withoutMark (".".intercalate segments ++ "<" ++ arguments ++ ">").toList =
      (".".intercalate segments).toList ++ '<' :: (arguments.toList ++ ['>']) := by
  obtain ⟨c, s, hcons, hc⟩ := exists_cons_of_segments hne h
  have hlast : (".".intercalate segments ++ "<" ++ arguments ++ ">").toList.getLast? =
      some '>' := by
    rw [toList_generic, ← List.cons_append, ← List.append_assoc, List.getLast?_concat]
  rw [← toList_generic]
  refine withoutMark_eq_self (fun d hd ↦ ?_) (fun d hd ↦ ?_) ?_
  · rw [toList_generic, hcons] at hd
    cases hd
    exact Text.isBlank_of_continuesIdentifier (Text.continuesIdentifier_of_startsIdentifier hc)
  · rw [hlast] at hd
    cases hd
    decide
  · rw [hlast]
    decide

/-- **A type name is read as its segments and the number of its type arguments.** -/
theorem parse?_of_isTypeName {text : String} {arity : Nat} (h : IsTypeName text segments arity) :
    parse? text = some ⟨.plain, segments, arity⟩ := by
  cases h with
  | dotted hne h =>
    have hblank : ∀ c ∈ (".".intercalate segments).toList, Text.isBlank c = false :=
      fun c hc ↦ isBlank_of_mem_intercalate_dot h hc
    have hmark : withoutMark (".".intercalate segments).toList =
        (".".intercalate segments).toList := by
      refine withoutMark_eq_self (fun c hc ↦ hblank c (List.mem_of_head? hc))
        (fun c hc ↦ hblank c (List.mem_of_getLast? hc)) fun hlast ↦ ?_
      exact notMem_intercalate_dot h (by decide) (by decide) (List.mem_of_getLast? hlast)
    have hqualifier : qualifierAndName (withoutMark (".".intercalate segments).toList) =
        (.plain, (".".intercalate segments).toList) := by
      rw [hmark, qualifierAndName,
        Text.splitOnce?_eq_none (notMem_intercalate_dot h (by decide) (by decide))]
    refine parse?_of_nameAndArity? hne h hqualifier ?_
    rw [nameAndArity?, Text.splitOnce?_eq_none (notMem_intercalate_dot h (by decide) (by decide))]
  | @generic _ arguments _ hne h hcount hcolon =>
    have hmark := @withoutMark_generic _ hne h arguments
    have hqualifier : qualifierAndName
        (withoutMark (".".intercalate segments ++ "<" ++ arguments ++ ">").toList) =
          (.plain, (".".intercalate segments).toList ++ '<' :: (arguments.toList ++ ['>'])) := by
      rw [toList_generic] at hcolon
      rw [hmark, qualifierAndName,
        Text.splitOnce?_eq_none_of_not_infix (List.cons_ne_nil _ _) hcolon]
    have hsuffix : Text.stripSuffix? '>' (arguments.toList ++ ['>']) = some arguments.toList := by
      simp [Text.stripSuffix?]
    refine parse?_of_nameAndArity? hne h hqualifier ?_
    rw [nameAndArity?, Text.splitOnce?_append (notMem_intercalate_dot h (by decide) (by decide))]
    dsimp only
    rw [hsuffix]
    dsimp only
    rw [hcount]
    rfl

end Reference

end DoubleDispatch
