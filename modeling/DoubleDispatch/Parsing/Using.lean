import DoubleDispatch.Parsing.Name

/-!
# Using directives

Reading a directive is an attempt: what does not turn out to be one (such as a `using` statement)
is left where it stands.
-/

namespace DoubleDispatch

namespace Stream

/-- Takes the next token if it is the given word. -/
def eatWord (s : Stream) (word : String) : Stream := s.eat (.identifier word)

/-- What a directive brings into scope, as its words before the target say. An alias takes
precedence over `static`. -/
def usingKind (isStatic : Bool) (s : Stream) : Parsed UsingKind :=
  match s.kind.name?, s.secondKind with
  | some name, .equals => ⟨.alias name, s.advance.advance⟩
  | _, _ => ⟨if isStatic then .staticMembers else .types, s⟩

/-- The rest of a directive behind the word `using`. -/
def usingTarget? (source : List Char) (isGlobal : Bool) (start : Nat) (s : Stream) :
    Option (Parsed UsingDirective) :=
  let kind := usingKind (s.kind.isWord "static") ((s.eatWord "static").eatWord "unsafe")
  match kind.rest.typeName? source with
  | none => none
  | some target =>
    if target.rest.kind = .semicolon then
      let next := target.rest.advance
      some ⟨⟨kind.value, target.value, isGlobal, ⟨start, next.prevEnd⟩⟩, next⟩
    else none

/-- Behind the word `using` stand the kind of the directive, its target and a semicolon. -/
theorem usingTarget?_eq_some_iff {source : List Char} {isGlobal : Bool} {start : Nat} {s : Stream}
    {u : Parsed UsingDirective} :
    let kind := usingKind (s.kind.isWord "static") ((s.eatWord "static").eatWord "unsafe")
    s.usingTarget? source isGlobal start = some u ↔ ∃ target,
      kind.rest.typeName? source = some target ∧ target.rest.kind = .semicolon ∧
      u = ⟨⟨kind.value, target.value, isGlobal, ⟨start, target.rest.advance.prevEnd⟩⟩,
        target.rest.advance⟩ := by
  constructor
  · intro h
    simp only [usingTarget?] at h
    split at h
    · cases h
    next target htarget =>
      split at h
      next hsemicolon => exact ⟨target, htarget, hsemicolon, (Option.some.inj h).symm⟩
      next => cases h
  · rintro ⟨target, htarget, hsemicolon, rfl⟩
    simp only [usingTarget?, htarget, if_pos hsemicolon]

/-- The using directive that starts here, if one does. -/
def using? (source : List Char) (s : Stream) : Option (Parsed UsingDirective) :=
  if s.kind.isWord "using" then usingTarget? source false s.start s.advance
  else if s.kind.isWord "global" && s.secondKind.isWord "using" then
    usingTarget? source true s.start s.advance.advance
  else none

theorem size_usingTarget?_lt {source : List Char} {isGlobal : Bool} {start : Nat} {s : Stream}
    {u : Parsed UsingDirective} (h : s.usingTarget? source isGlobal start = some u) :
    u.rest.size < s.size := by
  have hkind (isStatic : Bool) (s : Stream) : (usingKind isStatic s).rest.size ≤ s.size := by
    unfold usingKind
    split
    · exact Nat.le_trans (size_advance_le _) (size_advance_le _)
    · exact Nat.le_refl _
  obtain ⟨target, htarget, -, rfl⟩ := usingTarget?_eq_some_iff.1 h
  exact Nat.lt_of_le_of_lt (size_advance_le _) (Nat.lt_of_lt_of_le (size_typeName?_lt htarget)
    (Nat.le_trans (hkind _ _) (Nat.le_trans (size_eat_le _ _) (size_eat_le _ _))))

theorem size_using?_lt {source : List Char} {s : Stream} {u : Parsed UsingDirective}
    (h : s.using? source = some u) : u.rest.size < s.size := by
  unfold using? at h
  split at h
  · exact Nat.lt_of_lt_of_le (size_usingTarget?_lt h) s.size_advance_le
  · split at h
    · exact Nat.lt_of_lt_of_le (size_usingTarget?_lt h)
        (Nat.le_trans (size_advance_le _) (size_advance_le _))
    · cases h

end Stream

end DoubleDispatch
