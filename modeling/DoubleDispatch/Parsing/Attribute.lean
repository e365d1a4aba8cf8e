import DoubleDispatch.Parsing.Group
import DoubleDispatch.Parsing.Name

/-!
# Attribute sections

Sections of attributes in square brackets, as they stand before a declaration. Reading them is an
attempt: what turns out not to be a list of attributes, or is meant for the assembly or the module,
belongs to no declaration.
-/

namespace DoubleDispatch

namespace Stream

/-- Takes the arguments of an attribute, if it has any. -/
def skipArguments? (s : Stream) : Option Stream :=
  if s.kind = .openParen then s.skipGroup.toOption else some s

/-- Arguments are a group in parentheses, or there are none. -/
theorem skipArguments?_eq_some_iff {s next : Stream} : s.skipArguments? = some next ↔
    (s.kind = .openParen ∧ s.skipGroup = .ok next) ∨ (s.kind ≠ .openParen ∧ next = s) := by
  by_cases hparen : s.kind = .openParen
  · rw [skipArguments?, if_pos hparen]
    cases s.skipGroup <;> simp [hparen, Except.toOption]
  · rw [skipArguments?, if_neg hparen]
    simp [hparen, eq_comm]

theorem size_skipArguments?_le {s next : Stream} (h : s.skipArguments? = some next) :
    next.size ≤ s.size := by
  rcases skipArguments?_eq_some_iff.1 h with ⟨-, hskip⟩ | ⟨-, rfl⟩
  · exact Nat.le_of_lt (size_skipGroup_lt hskip)
  · exact Nat.le_refl _

/-- One attribute with its arguments. -/
def attribute? (source : List Char) (s : Stream) : Option (Parsed Attribute) := do
  let name ← s.typeName? source
  let next ← name.rest.skipArguments?
  return ⟨⟨name.value, ⟨s.start, next.prevEnd⟩⟩, next⟩

/-- An attribute is a type name and perhaps arguments. -/
theorem attribute?_eq_some_iff {source : List Char} {s : Stream} {a : Parsed Attribute} :
    s.attribute? source = some a ↔ ∃ name next, s.typeName? source = some name ∧
      name.rest.skipArguments? = some next ∧
      a = ⟨⟨name.value, ⟨s.start, next.prevEnd⟩⟩, next⟩ := by
  constructor
  · intro h
    obtain ⟨name, hname, h⟩ := Option.bind_eq_some_iff.1 h
    obtain ⟨next, hnext, h⟩ := Option.bind_eq_some_iff.1 h
    exact ⟨name, next, hname, hnext, (Option.some.inj h).symm⟩
  · rintro ⟨name, next, hname, hnext, rfl⟩
    exact Option.bind_eq_some_iff.2 ⟨name, hname, Option.bind_eq_some_iff.2 ⟨next, hnext, rfl⟩⟩

/-- An attribute takes a token at least. -/
theorem size_attribute?_lt {source : List Char} {s : Stream} {a : Parsed Attribute}
    (h : s.attribute? source = some a) : a.rest.size < s.size := by
  obtain ⟨name, next, hname, hnext, rfl⟩ := attribute?_eq_some_iff.1 h
  exact Nat.lt_of_le_of_lt (size_skipArguments?_le hnext) (size_typeName?_lt hname)

/-- The attributes up to the closing bracket or up to one that no comma follows. -/
def attributes? (source : List Char) (s : Stream) : Option (Parsed (List Attribute)) :=
  if s.kind = .closeBracket then some ⟨[], s⟩ else
    match h : s.attribute? source with
    | none => none
    | some first =>
      have := size_attribute?_lt h
      if first.rest.kind = .comma then
        match attributes? source first.rest.advance with
        | none => none
        | some later => some ⟨first.value :: later.value, later.rest⟩
      else some ⟨[first.value], first.rest⟩
termination_by s.size
decreasing_by exact Nat.lt_of_le_of_lt (size_advance_le _) this

/-- The recursion over the attributes of a section. -/
theorem attributes?_eq (source : List Char) (s : Stream) : attributes? source s =
    if s.kind = .closeBracket then some ⟨[], s⟩ else do
      let first ← s.attribute? source
      if first.rest.kind = .comma then
        let later ← attributes? source first.rest.advance
        return ⟨first.value :: later.value, later.rest⟩
      else return ⟨[first.value], first.rest⟩ := by
  rw [attributes?]
  split
  · rfl
  · split
    next hnone =>
      rw [hnone]
      rfl
    next first hfirst =>
      conv => rhs; rw [hfirst]
      dsimp only [bind, Option.bind, pure]
      cases attributes? source first.rest.advance <;> rfl

theorem size_attributes?_le {source : List Char} {s : Stream} {as : Parsed (List Attribute)}
    (h : s.attributes? source = some as) : as.rest.size ≤ s.size := by
  fun_induction attributes? source s generalizing as with
  | case1 => cases h; exact Nat.le_refl _
  | case2 => cases h
  | case3 => cases h
  | case4 s _ first _ hlt _ later hl ih =>
    have hle := ih hl
    cases h
    exact Nat.le_trans hle (Nat.le_trans (size_advance_le _) (Nat.le_of_lt hlt))
  | case5 _ _ first _ hlt => cases h; exact Nat.le_of_lt hlt

/-- The target that a section is written for, if it names one. -/
def target (s : Stream) : Parsed (Option String) :=
  match s.kind.name?, s.secondKind with
  | some name, .colon => ⟨some name, s.advance.advance⟩
  | _, _ => ⟨none, s⟩

theorem size_target_le (s : Stream) : s.target.rest.size ≤ s.size := by
  unfold target
  split
  · exact Nat.le_trans (size_advance_le _) (size_advance_le _)
  · exact Nat.le_refl _

/-- Whether a section with this target belongs to the declaration behind it. -/
def isOwnTarget : Option String → Bool
  | some "assembly" | some "module" => false
  | _ => true

/-- One section, from its opening bracket on. -/
def section? (source : List Char) (s : Stream) : Option (Parsed AttributeSection) :=
  let target := s.advance.target
  if isOwnTarget target.value then
    match attributes? source target.rest with
    | none => none
    | some attributes =>
      if attributes.value.isEmpty || attributes.rest.kind != .closeBracket then none
      else
        let next := attributes.rest.advance
        some ⟨⟨target.value, attributes.value, ⟨s.start, next.prevEnd⟩⟩, next⟩
  else none

/-- A section is a target that is not for the assembly or the module, some attributes and a closing
bracket. -/
theorem section?_eq_some_iff {source : List Char} {s : Stream} {a : Parsed AttributeSection} :
    s.section? source = some a ↔ ∃ attributes,
      isOwnTarget s.advance.target.value = true ∧
      s.advance.target.rest.attributes? source = some attributes ∧
      attributes.value.isEmpty = false ∧ attributes.rest.kind = .closeBracket ∧
      a = ⟨⟨s.advance.target.value, attributes.value,
        ⟨s.start, attributes.rest.advance.prevEnd⟩⟩, attributes.rest.advance⟩ := by
  constructor
  · intro h
    simp only [section?] at h
    split at h
    next hown =>
      split at h
      · cases h
      next attributes hattributes =>
        split at h
        · cases h
        next hclosed =>
          obtain ⟨hsome, hcloser⟩ :
              attributes.value.isEmpty = false ∧ attributes.rest.kind = .closeBracket := by
            simpa using hclosed
          exact ⟨attributes, hown, hattributes, hsome, hcloser, (Option.some.inj h).symm⟩
    next => cases h
  · rintro ⟨attributes, hown, hattributes, hsome, hcloser, rfl⟩
    simp [section?, hown, hattributes, hsome, hcloser]

/-- A section takes its opening bracket at least. -/
theorem size_section?_lt {source : List Char} {s : Stream} {a : Parsed AttributeSection}
    (hk : s.kind = .openBracket) (h : s.section? source = some a) : a.rest.size < s.size := by
  obtain ⟨attributes, -, hattributes, -, -, rfl⟩ := section?_eq_some_iff.1 h
  have h₁ := size_advance_le attributes.rest
  have h₂ := size_attributes?_le hattributes
  have h₃ := size_target_le s.advance
  have h₄ : s.advance.size < s.size := size_advance_lt (by simp [hk])
  exact Nat.lt_of_le_of_lt (Nat.le_trans h₁ (Nat.le_trans h₂ h₃)) h₄

/-- All sections before a declaration. -/
def sections? (source : List Char) (s : Stream) : Option (Parsed (List AttributeSection)) :=
  if hk : s.kind = .openBracket then
    match h : s.section? source with
    | none => none
    | some first =>
      have := size_section?_lt hk h
      match sections? source first.rest with
      | none => none
      | some later => some ⟨first.value :: later.value, later.rest⟩
  else some ⟨[], s⟩
termination_by s.size
decreasing_by exact this

/-- The recursion over the sections before a declaration. -/
theorem sections?_eq (source : List Char) (s : Stream) : sections? source s =
    if s.kind = .openBracket then do
      let first ← s.section? source
      let later ← sections? source first.rest
      return ⟨first.value :: later.value, later.rest⟩
    else some ⟨[], s⟩ := by
  rw [sections?]
  split
  · split
    next hnone =>
      rw [hnone]
      rfl
    next first hfirst =>
      conv => rhs; rw [hfirst]
      dsimp only [bind, Option.bind, pure]
      cases sections? source first.rest <;> rfl
  · rfl

theorem size_sections?_le {source : List Char} {s : Stream}
    {as : Parsed (List AttributeSection)} (h : s.sections? source = some as) :
    as.rest.size ≤ s.size := by
  fun_induction sections? source s generalizing as with
  | case1 => cases h
  | case2 => cases h
  | case3 s hk first _ hlt later hl ih =>
    have hle := ih hl
    cases h
    exact Nat.le_trans hle (Nat.le_of_lt hlt)
  | case4 => cases h; exact Nat.le_refl _

end Stream

end DoubleDispatch
