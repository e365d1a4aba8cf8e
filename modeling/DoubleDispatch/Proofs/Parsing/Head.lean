import DoubleDispatch.Proofs.Parsing.Strays

/-!
# Declarations up to their bodies

The header of a type is read to its end before its body is looked at. What is read of it
(`Stream.head`) does not depend on the body, and with where the body ends it is the declaration
(`Stream.declarator_eq`).
-/

namespace DoubleDispatch

namespace Stream

/-- What stands before the body of a type. -/
structure Head where
  start : HeaderStart
  name : String
  typeParameters : List String
  bases : List BaseEntry
  nameSpan : Span
deriving Repr

/-- The declaration with a header, an ordinal and a span. -/
def Head.declaration (head : Head) (ordinal : Nat) (span : Span) : TypeDeclaration where
  ordinal
  kind := head.start.kind
  name := head.name
  typeParameters := head.typeParameters
  modifiers := head.start.modifiers
  sections := head.start.sections
  bases := head.bases
  nameSpan := head.nameSpan
  span

/-- The header whose keyword has been read, up to the body. -/
def head (source : List Char) (start : HeaderStart) (s : Stream) :
    Except ParseError (Parsed Head) :=
  match s.kind.name? with
  | none => .error (s.unexpected (.typeName start.kind))
  | some name => do
    let typeParameters ← typeParameterList s.advance
    let bases ← baseList source (← skipParameters typeParameters.rest)
    let mark ← constraints bases.rest
    return ⟨⟨start, name, typeParameters.value, bases.value, s.span⟩, mark⟩

variable {source : List Char} {s : Stream} {start : HeaderStart}

/-- A declaration is a header and a body. -/
theorem declarator_eq (source : List Char) (ordinal offset : Nat) (start : HeaderStart)
    (s : Stream) : declarator source ordinal offset start s = (do
      let head ← s.head source start
      let next ← head.rest.typeBody head.value.name
      return ⟨head.value.declaration ordinal ⟨offset, next.prevEnd⟩, next⟩) := by
  rw [declarator, head]
  cases s.kind.name? with
  | none => rfl
  | some name =>
    dsimp only
    simp only [bind_assoc, pure_bind]
    rfl

/-- What is read of a header: a name, type parameters, parameters, base entries and constraints. -/
theorem head_eq_ok_iff {head : Parsed Head} : s.head source start = .ok head ↔
    ∃ name parameters next bases mark, s.kind.name? = some name ∧
      s.advance.typeParameterList = .ok parameters ∧ parameters.rest.skipParameters = .ok next ∧
      next.baseList source = .ok bases ∧ bases.rest.constraints = .ok mark ∧
      head = ⟨⟨start, name, parameters.value, bases.value, s.span⟩, mark⟩ := by
  constructor
  · intro h
    rw [Stream.head] at h
    split at h
    · cases h
    next name hname =>
      obtain ⟨parameters, hparameters, h⟩ := exists_of_bind_eq_ok h
      obtain ⟨next, hnext, h⟩ := exists_of_bind_eq_ok h
      obtain ⟨bases, hbases, h⟩ := exists_of_bind_eq_ok h
      obtain ⟨mark, hmark, h⟩ := exists_of_bind_eq_ok h
      exact ⟨name, parameters, next, bases, mark, hname, hparameters, hnext, hbases, hmark,
        (Except.ok.inj h).symm⟩
  · rintro ⟨name, parameters, next, bases, mark, hname, hparameters, hnext, hbases, hmark, rfl⟩
    rw [Stream.head, hname]
    dsimp only
    rw [hparameters, ok_bind, hnext, ok_bind, hbases, ok_bind, hmark]
    rfl

theorem start_of_head {head : Parsed Head} (h : s.head source start = .ok head) :
    head.value.start = start := by
  obtain ⟨_, _, _, _, _, -, -, -, -, -, rfl⟩ := head_eq_ok_iff.1 h
  rfl

theorem exists_passes_head {head : Parsed Head} (h : s.head source start = .ok head) :
    ∃ strays, s.Passes head.rest strays := by
  obtain ⟨name, parameters, next, bases, mark, hname, hparameters, hnext, hbases, hmark, rfl⟩ :=
    head_eq_ok_iff.1 h
  obtain ⟨t, hahead, hkind, -⟩ := exists_ahead_eq (kind_ne_endOfFile_of_name? hname)
  have hword : ∃ strays, s.Passes s.advance strays :=
    ⟨[], [t], hahead, .plain (hkind ▸ isPlain_of_name? hname) .nil⟩
  obtain ⟨_, hbaseClause⟩ := exists_passesClause_baseList hbases
  obtain ⟨_, hconstraintClause⟩ := exists_passesClause_constraints hmark
  have hclauses := exists_passes_trans ⟨_, hbaseClause.passes⟩ ⟨_, hconstraintClause.passes⟩
  exact exists_passes_trans hword (exists_passes_trans
    ⟨[], (passes_typeParameterList hparameters).and_then (passes_skipParameters hnext)⟩ hclauses)

end Stream

end DoubleDispatch
