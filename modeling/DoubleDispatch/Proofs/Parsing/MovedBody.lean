import DoubleDispatch.Proofs.Parsing.RelabelBody
import DoubleDispatch.Proofs.Token.Translation

/-!
# A source behind other text

A source that stands behind some text is read as it is read alone, success and failure alike, with
its offsets moved by the length of that text and its types numbered on behind those before it
(`bodyOf_moved`). This is a relabelling that renames nothing. Where the token before a source ended
plays no part in reading it (`bodyOf_cons`).
-/

namespace DoubleDispatch

open Text (byteLength)

/-! ### What is moved -/

section Moved

variable (k m : Nat)

def UsingDirective.moved (u : UsingDirective) : UsingDirective := { u with span := u.span.moved k }

def Attribute.moved (a : Attribute) : Attribute := { a with span := a.span.moved k }

def AttributeSection.moved (a : AttributeSection) : AttributeSection :=
  { a with attributes := a.attributes.map (.moved k), span := a.span.moved k }

def BaseEntry.moved (base : BaseEntry) : BaseEntry := { base with span := base.span.moved k }

/-- The declaration with its spans moved by `k` bytes, behind `m` other types. -/
def TypeDeclaration.moved (d : TypeDeclaration) : TypeDeclaration :=
  { d with
    ordinal := d.ordinal + m
    sections := d.sections.map (.moved k)
    bases := d.bases.map (.moved k)
    nameSpan := d.nameSpan.moved k
    span := d.span.moved k }

mutual

/-- The member with its spans moved by `k` bytes, behind `m` types. -/
def Member.moved (k m : Nat) : Member → Member
  | .type d => .type (d.moved k m)
  | .scope name fileScoped usings members span =>
    .scope name fileScoped (usings.map (.moved k)) (movedMembers k m members) (span.moved k)

/-- The members with their spans moved by `k` bytes, behind `m` types. -/
def movedMembers (k m : Nat) : List Member → List Member
  | [] => []
  | x :: xs => x.moved k m :: movedMembers k m xs

end

/-- The file with its spans moved by `k` bytes, behind `m` types. -/
def SourceFile.moved (file : SourceFile) : SourceFile :=
  ⟨file.usings.map (.moved k), movedMembers k m file.members⟩

/-- The same fault `k` bytes later. -/
def ParseError.moved : ParseError → ParseError
  | .rejected fault span => .rejected fault (span.moved k)
  | .backwardEntry span => .backwardEntry (span.moved k)

/-- The same outcome of parsing `k` bytes later, behind `m` types. -/
def movedFile : Except ParseError SourceFile → Except ParseError SourceFile
  | .ok file => .ok (file.moved k m)
  | .error e => .error (e.moved k)

end Moved

/-! ### Moving as a relabelling -/

/-- Text and types are put before a source, and nothing is renamed. -/
def Relabeling.moving (before : List Char) (ordinals : Nat) : Relabeling where
  before
  ordinals
  rename := id
  keeps := fun _ _ ↦ rfl
  avoids := fun _ h ↦ h

section Moving

variable (before : List Char) (m : Nat)

/-- To relabel a token without renaming is to move it. -/
theorem token_moving : (Relabeling.moving before m).token = Token.moved (byteLength before) := by
  funext ⟨kind, span⟩
  cases kind <;> rfl

/-- To relabel a directive without renaming is to move it. -/
theorem usingDirective_moving :
    UsingDirective.relabel (.moving before m) = .moved (byteLength before) := by
  funext ⟨kind, target, isGlobal, span⟩
  cases kind <;> rfl

/-- To relabel a section without renaming is to move it. -/
theorem section_moving :
    AttributeSection.relabel (.moving before m) = .moved (byteLength before) := by
  funext ⟨target, attributes, span⟩
  exact congrArg (AttributeSection.mk · _ _) (Option.map_id_apply)

/-- To relabel a declaration without renaming is to move it and to count its ordinal on. -/
theorem declaration_moving (d : TypeDeclaration) :
    d.relabel (.moving before m) = d.moved (byteLength before) m := by
  rw [TypeDeclaration.relabel, section_moving,
    show (Relabeling.moving before m).rename = id from rfl, List.map_id]
  rfl

/-- To relabel an error without renaming is to move its span. -/
theorem error_moving (e : ParseError) :
    (Relabeling.moving before m).error e = e.moved (byteLength before) := by
  have hkind (kind : TokenKind) : (Relabeling.moving before m).kind kind = kind := by
    cases kind <;> rfl
  cases e with
  | backwardEntry span => rfl
  | rejected fault span =>
    cases fault with
    | unexpected expected found =>
      have hexpected : (Relabeling.moving before m).expectation expected = expected := by
        cases expected with
        | token kind => exact congrArg Expectation.token (hkind kind)
        | _ => rfl
      exact congrArg (ParseError.rejected · _)
        (congrArg₂ ParseFault.unexpected hexpected (hkind found))
    | _ => rfl

variable {before m}

/-- Where nothing is renamed, names stay what they are. -/
theorem eq_of_renames_moving {name name' : String}
    (h : (Relabeling.moving before m).Renames name name') : name' = name := by
  obtain ⟨names, rfl, rfl⟩ := h
  exact congrArg ".".intercalate (List.map_id names)

mutual

/-- To relabel members without renaming is to move them. -/
theorem Member.Relabels.eq_moved {x x' : Member} (h : x.Relabels (.moving before m) x') :
    x' = x.moved (byteLength before) m :=
  match x, x', h with
  | .type d, .type _, hd => congrArg Member.type (hd.trans (declaration_moving before m d))
  | .scope .., .scope .., ⟨hname, hscoped, husings, hmembers, hspan⟩ => by
    rw [eq_of_renames_moving hname, hscoped, husings, usingDirective_moving,
      eq_moved_of_membersRelabel hmembers, hspan]
    rfl

theorem eq_moved_of_membersRelabel {xs xs' : List Member}
    (h : membersRelabel (.moving before m) xs xs') :
    xs' = movedMembers (byteLength before) m xs :=
  match xs, xs', h with
  | [], [], _ => rfl
  | _ :: _, _ :: _, ⟨hx, hxs⟩ => by
    rw [hx.eq_moved, eq_moved_of_membersRelabel hxs, movedMembers]

end

end Moving

namespace Stream

/-- What a body holds, as a file. -/
def Body.file (b : Body) : SourceFile := ⟨b.usings, b.members⟩

variable {source : List Char}

/-! ### Where the token before ended -/

section PrevEnd

variable {t : Token} (ht : t.kind ≠ .endOfFile) (ts : List Token) (prevEnd prevEnd' : Nat)
include ht

/-- Where a token is ahead, it does not matter for modifiers where the one before it ended. -/
theorem readModifiers_cons_prevEnd :
    (readModifiers prevEnd (t :: ts)).value = (readModifiers prevEnd' (t :: ts)).value ∧
      (readModifiers prevEnd (t :: ts)).rest.typeKeyword? =
        (readModifiers prevEnd' (t :: ts)).rest.typeKeyword? := by
  have hkeyword : typeKeyword? ⟨t :: ts, prevEnd⟩ = typeKeyword? ⟨t :: ts, prevEnd'⟩ := by
    rw [typeKeyword?, typeKeyword?, advance_cons ht, advance_cons ht]
    rfl
  obtain ⟨kind, span⟩ := t
  cases kind with
  | identifier word =>
    by_cases hword : modifierWords.contains word
    · rw [readModifiers, readModifiers, if_pos hword, if_pos hword]
      exact ⟨rfl, rfl⟩
    · rw [readModifiers, readModifiers, if_neg hword, if_neg hword]
      exact ⟨rfl, hkeyword⟩
  | _ => exact ⟨rfl, hkeyword⟩

theorem headerStart?_cons :
    headerStart? source ⟨t :: ts, prevEnd⟩ = headerStart? source ⟨t :: ts, prevEnd'⟩ := by
  simp only [headerStart?]
  rw [sections?_eq _ ⟨t :: ts, prevEnd⟩, sections?_eq _ ⟨t :: ts, prevEnd'⟩]
  by_cases hbracket : t.kind = .openBracket
  · rw [if_pos (show kind ⟨t :: ts, prevEnd⟩ = .openBracket from hbracket),
      if_pos (show kind ⟨t :: ts, prevEnd'⟩ = .openBracket from hbracket), section?, section?,
      advance_cons ht, advance_cons ht]
    rfl
  · rw [if_neg (show kind ⟨t :: ts, prevEnd⟩ ≠ .openBracket from hbracket),
      if_neg (show kind ⟨t :: ts, prevEnd'⟩ ≠ .openBracket from hbracket)]
    obtain ⟨hvalue, hkeyword⟩ := readModifiers_cons_prevEnd ht ts prevEnd prevEnd'
    dsimp only
    rw [hvalue, hkeyword]

/-- **Where a token is ahead**, it does not matter for a body where the one before it ended. -/
theorem bodyOf_cons (ordinal : Nat) :
    bodyOf source false ordinal ⟨t :: ts, prevEnd⟩ =
      bodyOf source false ordinal ⟨t :: ts, prevEnd'⟩ := by
  have goesOn (prevEnd : Nat) : GoesOn false ⟨t :: ts, prevEnd⟩ := ⟨beq_eq_false_iff_ne.2 ht, ht⟩
  have husing : using? source ⟨t :: ts, prevEnd⟩ = using? source ⟨t :: ts, prevEnd'⟩ := by
    rw [using?, using?, advance_cons ht, advance_cons ht]
    rfl
  cases hdirective : using? source ⟨t :: ts, prevEnd'⟩ with
  | some directive =>
    rw [(goesOn _).bodyOf_using hdirective, (goesOn _).bodyOf_using (husing.trans hdirective)]
  | none =>
    have hnone := husing.trans hdirective
    cases hword : t.kind.isWord "namespace" with
    | true =>
      rw [(goesOn _).bodyOf_namespace hdirective hword, (goesOn _).bodyOf_namespace hnone hword,
        bodyFromNamespace, bodyFromNamespace, advance_cons ht, advance_cons ht]
      rfl
    | false =>
      have hskip : skipItem ⟨t :: ts, prevEnd⟩ = skipItem ⟨t :: ts, prevEnd'⟩ := by
        rw [skipItem, skipItem, advance_cons ht, advance_cons ht, skipGroup, skipGroup, skipGroups,
          skipGroups]
        rfl
      rw [(goesOn _).bodyOf_type hdirective hword, (goesOn _).bodyOf_type hnone hword,
        bodyFromType, bodyFromType, hskip, typeDeclaration?, typeDeclaration?,
        headerStart?_cons ht ts prevEnd prevEnd']
      rfl

end PrevEnd

/-- What a file holds does not depend on where the token before it ended. -/
theorem file_bodyOf_prevEnd (ordinal : Nat) (tokens : List Token) (prevEnd prevEnd' : Nat) :
    Body.file <$> bodyOf source false ordinal ⟨tokens, prevEnd⟩ =
      Body.file <$> bodyOf source false ordinal ⟨tokens, prevEnd'⟩ := by
  by_cases hend : kind ⟨tokens, 0⟩ = .endOfFile
  · have hends (prevEnd : Nat) : endsBody false ⟨tokens, prevEnd⟩ := beq_iff_eq.2 hend
    rw [bodyOf_eq, if_pos (hends prevEnd), bodyOf_eq, if_pos (hends prevEnd')]
    rfl
  · obtain _ | ⟨t, ts⟩ := tokens
    · exact absurd rfl hend
    · rw [bodyOf_cons hend]

/-! ### Bodies -/

/-- **A source behind other text is read as it is read alone**, `byteLength before` bytes later and
behind `m` other types. -/
theorem bodyOf_moved (source before : List Char) (m : Nat) (tokens : List Token) (prevEnd : Nat) :
    Body.file <$> bodyOf (before ++ source) false m
        ⟨tokens.map (Token.moved (byteLength before)), prevEnd⟩ =
      movedFile (byteLength before) m (Body.file <$> bodyOf source false 0 ⟨tokens, 0⟩) := by
  have hrelates : (Relabeling.moving before m).Relates (Body.Relabels (.moving before m))
      (bodyOf source false 0 ⟨tokens, 0⟩) _ := bodyOf_relabel ⟨tokens, 0⟩ false 0
  rw [Relabeling.stream, token_moving, show (Relabeling.moving before m).offset 0 =
    byteLength before from Nat.zero_add _, Nat.zero_add] at hrelates
  rw [file_bodyOf_prevEnd m _ prevEnd (byteLength before)]
  match bodyOf source false 0 ⟨tokens, 0⟩, bodyOf (before ++ source) false m
    ⟨tokens.map (Token.moved (byteLength before)), byteLength before⟩, hrelates with
  | .error e, .error _, herror =>
    exact congrArg Except.error (herror.trans (error_moving before m e))
  | .ok b, .ok b', hbody =>
    have husings := hbody.usings
    rw [usingDirective_moving] at husings
    exact congrArg Except.ok
      (congrArg₂ SourceFile.mk husings (eq_moved_of_membersRelabel hbody.members))

end Stream

end DoubleDispatch
