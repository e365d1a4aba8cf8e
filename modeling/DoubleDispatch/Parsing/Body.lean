import DoubleDispatch.Parsing.Header
import DoubleDispatch.Parsing.Using

/-!
# Bodies

The body of a file or of a namespace: using directives, namespaces and types. Everything else
(statements, delegates, members) is passed over token by token or group by group, so that the
parser stays in step with sources it does not understand.
-/

namespace DoubleDispatch

namespace Stream

/-- Behind one token, or behind one group where a group opens. A closing delimiter is a fault. -/
def skipItem (s : Stream) : Except ParseError Stream :=
  if s.kind.closer?.isSome then s.skipGroup
  else if s.kind.isCloser then .error (s.unexpected .declaration)
  else .ok s.advance

/-- What a body holds, the ordinal of the next type, and the stream at the end of the body. -/
structure Body where
  usings : List UsingDirective
  members : List Member
  ordinal : Nat
  rest : Stream
deriving Repr

/-- The header of a namespace: its name, and whether it is file-scoped. -/
def namespaceHeader (s : Stream) : Except ParseError (Parsed (String × Bool)) :=
  match s.dottedName with
  | .error e => .error e
  | .ok name =>
    match name.rest.kind with
    | .semicolon => .ok ⟨(name.value, true), name.rest.advance⟩
    | .openBrace => .ok ⟨(name.value, false), name.rest.advance⟩
    | _ => .error (name.rest.unexpected .namespaceBody)

/-- The mark behind the name of a namespace tells whether it is file-scoped. -/
theorem namespaceHeader_eq_ok_iff {s : Stream} {header : Parsed (String × Bool)} :
    s.namespaceHeader = .ok header ↔ ∃ name fileScoped, s.dottedName = .ok name ∧
      (name.rest.kind = if fileScoped then .semicolon else .openBrace) ∧
      header = ⟨(name.value, fileScoped), name.rest.advance⟩ := by
  constructor
  · intro h
    rw [namespaceHeader] at h
    split at h
    · cases h
    next name hname =>
      split at h
      next hkind => exact ⟨name, true, hname, hkind, (Except.ok.inj h).symm⟩
      next hkind => exact ⟨name, false, hname, hkind, (Except.ok.inj h).symm⟩
      next => cases h
  · rintro ⟨name, fileScoped, hname, hkind, rfl⟩
    cases fileScoped <;> simp [namespaceHeader, hname, hkind]

theorem size_namespaceHeader_lt {s : Stream} {header : Parsed (String × Bool)}
    (h : s.namespaceHeader = .ok header) : header.rest.size < s.size := by
  obtain ⟨name, _, hname, -, rfl⟩ := namespaceHeader_eq_ok_iff.1 h
  exact Nat.lt_of_le_of_lt (size_advance_le _) (size_dottedName_lt hname)

/-- Whether a body ends here: that of a file at the end of the file, and that of a namespace in
braces at the closing brace. -/
def endsBody (braced : Bool) (s : Stream) : Bool :=
  if braced then s.kind == .closeBrace else s.kind == .endOfFile

theorem size_skipItem_lt {s next : Stream} (hk : s.kind ≠ .endOfFile)
    (h : s.skipItem = .ok next) : next.size < s.size := by
  unfold skipItem at h
  split at h
  · exact size_skipGroup_lt h
  · split at h
    · cases h
    · cases h; exact size_advance_lt hk

/-- Behind the end of a namespace whose body ends here: a file-scoped one ends at once, and another
with its brace and a semicolon that may follow. -/
def behindBody (fileScoped : Bool) (s : Stream) : Stream :=
  if fileScoped then s else s.advance.eat .semicolon

theorem size_behindBody_le (fileScoped : Bool) (s : Stream) :
    (s.behindBody fileScoped).size ≤ s.size := by
  unfold behindBody
  split
  · exact Nat.le_refl _
  · exact Nat.le_trans (size_eat_le _ _) (size_advance_le _)

/-- The namespace that has this content, the given header and the given start. -/
def Body.toScope (content : Body) (header : String × Bool) (start : Nat) : Member :=
  .scope header.1 header.2 content.usings content.members
    ⟨start, (content.rest.behindBody header.2).prevEnd⟩

/-- The body that starts here; `braced` says whether a closing brace ends it. A file-scoped
namespace ends with what encloses it. -/
def body (source : List Char) (braced : Bool) (ordinal : Nat) (s : Stream) :
    Except ParseError { b : Body // b.rest.size ≤ s.size } :=
  if s.endsBody braced then .ok ⟨⟨[], [], ordinal, s⟩, Nat.le_refl _⟩
  else if hk : s.kind = .endOfFile then .error (s.unexpected (.token .closeBrace))
  else
    match hu : s.using? source with
    | some directive =>
      have hlt := size_using?_lt hu
      match body source braced ordinal directive.rest with
      | .error e => .error e
      | .ok ⟨later, hle⟩ =>
        .ok ⟨{ later with usings := directive.value :: later.usings },
          Nat.le_trans hle (Nat.le_of_lt hlt)⟩
    | none =>
      if s.kind.isWord "namespace" then
        match hh : s.advance.namespaceHeader with
        | .error e => .error e
        | .ok header =>
          have hlt := Nat.lt_of_lt_of_le (size_namespaceHeader_lt hh) s.size_advance_le
          match body source (braced || !header.value.2) ordinal header.rest with
          | .error e => .error e
          | .ok ⟨content, hle⟩ =>
            have hnext := size_behindBody_le header.value.2 content.rest
            match body source braced content.ordinal (content.rest.behindBody header.value.2) with
            | .error e => .error e
            | .ok ⟨later, hle'⟩ =>
              .ok ⟨{ later with members := content.toScope header.value s.start :: later.members },
                Nat.le_of_lt (by simp only; omega)⟩
      else
        match hd : s.typeDeclaration? source ordinal with
        | .error e => .error e
        | .ok (some declaration) =>
          have hlt := size_typeDeclaration?_lt hd
          match body source braced (ordinal + 1) declaration.rest with
          | .error e => .error e
          | .ok ⟨later, hle⟩ =>
            .ok ⟨{ later with members := .type declaration.value :: later.members },
              Nat.le_trans hle (Nat.le_of_lt hlt)⟩
        | .ok none =>
          match hs : s.skipItem with
          | .error e => .error e
          | .ok next =>
            have hlt := size_skipItem_lt hk hs
            match body source braced ordinal next with
            | .error e => .error e
            | .ok ⟨later, hle⟩ => .ok ⟨later, Nat.le_trans hle (Nat.le_of_lt hlt)⟩
termination_by s.size
decreasing_by all_goals omega

end Stream

end DoubleDispatch
