import DoubleDispatch.Proofs.Parsing.Body
import DoubleDispatch.Proofs.Parsing.Passage

/-!
# Bodies that are read

`Stream.Reads` is the derivation of a body that is read: an end, or a directive, a namespace with
its content, a type or another item, and the body behind it. A parser gives a body exactly if it has
such a derivation (`bodyOf_eq_ok_iff`), so whatever holds of a body that was read is proved by
induction on the derivation.
-/

namespace DoubleDispatch

namespace Stream

variable {source : List Char}

/-- The body that starts at a stream is read as the given one. -/
inductive Reads (source : List Char) : Bool → Nat → Stream → Body → Prop
  | done {braced : Bool} {ordinal : Nat} {s : Stream} (ends : s.endsBody braced = true) :
    Reads source braced ordinal s ⟨[], [], ordinal, s⟩
  | usingDirective {braced : Bool} {ordinal : Nat} {s : Stream} {directive : Parsed UsingDirective}
      {later : Body} (goesOn : GoesOn braced s) (found : s.using? source = some directive)
      (hlater : Reads source braced ordinal directive.rest later) :
    Reads source braced ordinal s { later with usings := directive.value :: later.usings }
  | scope {braced : Bool} {ordinal : Nat} {s : Stream} {header : Parsed (String × Bool)}
      {content later : Body} (goesOn : GoesOn braced s) (noUsing : s.using? source = none)
      (word : s.kind.isWord "namespace" = true) (found : s.advance.namespaceHeader = .ok header)
      (hcontent : Reads source (braced || !header.value.2) ordinal header.rest content)
      (hlater : Reads source braced content.ordinal (content.rest.behindBody header.value.2)
        later) :
    Reads source braced ordinal s (later.behindScope content header.value s.start)
  | type {braced : Bool} {ordinal : Nat} {s : Stream} {declaration : Parsed TypeDeclaration}
      {later : Body} (goesOn : GoesOn braced s) (noUsing : s.using? source = none)
      (noNamespace : s.kind.isWord "namespace" = false)
      (found : s.typeDeclaration? source ordinal = .ok (some declaration))
      (hlater : Reads source braced (ordinal + 1) declaration.rest later) :
    Reads source braced ordinal s { later with members := .type declaration.value :: later.members }
  | item {braced : Bool} {ordinal : Nat} {s next : Stream} {later : Body}
      (goesOn : GoesOn braced s) (noUsing : s.using? source = none)
      (noNamespace : s.kind.isWord "namespace" = false)
      (noType : s.typeDeclaration? source ordinal = .ok none) (found : s.skipItem = .ok next)
      (hlater : Reads source braced ordinal next later) :
    Reads source braced ordinal s later

namespace Reads

variable {braced : Bool} {ordinal : Nat} {s : Stream} {b : Body}

theorem bodyOf_eq (h : Reads source braced ordinal s b) :
    bodyOf source braced ordinal s = .ok b := by
  induction h with
  | done ends => rw [Stream.bodyOf_eq, if_pos ends]
  | usingDirective goesOn found _ ih => rw [goesOn.bodyOf_using found, ih, ok_bind]; rfl
  | scope goesOn noUsing word found _ _ ihcontent ihlater =>
    rw [goesOn.bodyOf_namespace noUsing word, bodyFromNamespace, found, ok_bind, ihcontent,
      ok_bind, ihlater, ok_bind]
    rfl
  | type goesOn noUsing noNamespace found _ ih =>
    rw [goesOn.bodyOf_type noUsing noNamespace, bodyFromType, found]
    dsimp only
    rw [ih, ok_bind]
    rfl
  | item goesOn noUsing noNamespace noType found _ ih =>
    rw [goesOn.bodyOf_type noUsing noNamespace, bodyFromType, noType]
    dsimp only
    rw [found, ok_bind, ih]

theorem endsBody (h : Reads source braced ordinal s b) : b.rest.endsBody braced = true := by
  induction h with
  | done ends => exact ends
  | usingDirective _ _ _ ih => exact ih
  | scope _ _ _ _ _ _ _ ih => exact ih
  | type _ _ _ _ _ ih => exact ih
  | item _ _ _ _ _ _ ih => exact ih

/-- The content of a namespace in braces ends before the closing one. -/
theorem kind_rest_of_block {fileScoped : Bool}
    (h : Reads source (braced || !fileScoped) ordinal s b) (hblock : fileScoped = false) :
    b.rest.kind = .closeBrace := by
  have hends := h.endsBody
  rw [hblock] at hends
  simpa [Stream.endsBody] using hends

/-- Behind a file-scoped namespace the body around it ends as well. -/
theorem eq_of_fileScoped {fileScoped : Bool} {later : Body} {ordinal' : Nat}
    (h : Reads source (braced || !fileScoped) ordinal s b) (hscoped : fileScoped = true)
    (hlater : Reads source braced ordinal' (b.rest.behindBody fileScoped) later) :
    later = ⟨[], [], ordinal', b.rest⟩ := by
  have hends := h.endsBody
  rw [hscoped] at hends hlater
  have hends : b.rest.endsBody braced = true := by simpa using hends
  rw [behindBody, if_pos rfl] at hlater
  cases hlater with
  | done => rfl
  | usingDirective goesOn => exact absurd hends (by rw [goesOn.endsBody]; decide)
  | scope goesOn => exact absurd hends (by rw [goesOn.endsBody]; decide)
  | type goesOn => exact absurd hends (by rw [goesOn.endsBody]; decide)
  | item goesOn => exact absurd hends (by rw [goesOn.endsBody]; decide)

end Reads

/-- **A body is read exactly if it has a derivation.** -/
theorem bodyOf_eq_ok_iff {braced : Bool} {ordinal : Nat} {s : Stream} {b : Body} :
    bodyOf source braced ordinal s = .ok b ↔ Reads source braced ordinal s b := by
  refine ⟨fun h ↦ ?_, Reads.bodyOf_eq⟩
  induction hn : s.size using Nat.strongRecOn generalizing braced ordinal s b with
  | ind n ih =>
    subst hn
    have ih {braced : Bool} {ordinal : Nat} {t : Stream} {b : Body} (hlt : t.size < s.size)
        (h : bodyOf source braced ordinal t = .ok b) : Reads source braced ordinal t b :=
      ih t.size hlt h rfl
    rw [bodyOf_eq] at h
    split at h
    next ends =>
      cases h
      exact .done ends
    next hends =>
      split at h
      · cases h
      next hkind =>
        have goesOn : GoesOn braced s := ⟨by simpa using hends, hkind⟩
        split at h
        next directive found =>
          obtain ⟨later, hlater, h⟩ := exists_of_bind_eq_ok h
          cases h
          exact .usingDirective goesOn found (ih (size_using?_lt found) hlater)
        next noUsing =>
          split at h
          next word =>
            obtain ⟨header, found, h⟩ := exists_of_bind_eq_ok h
            obtain ⟨content, hcontent, h⟩ := exists_of_bind_eq_ok h
            obtain ⟨later, hlater, h⟩ := exists_of_bind_eq_ok h
            cases h
            have hsize : header.rest.size < s.size :=
              Nat.lt_of_lt_of_le (size_namespaceHeader_lt found) s.size_advance_le
            have hsize' : (content.rest.behindBody header.value.2).size < s.size :=
              Nat.lt_of_le_of_lt
                (Nat.le_trans (size_behindBody_le _ _) (size_bodyOf_le hcontent)) hsize
            exact .scope goesOn noUsing word found (ih hsize hcontent) (ih hsize' hlater)
          next hword =>
            have noNamespace : s.kind.isWord "namespace" = false := by simpa using hword
            rw [bodyFromType] at h
            split at h
            · cases h
            next declaration found =>
              obtain ⟨later, hlater, h⟩ := exists_of_bind_eq_ok h
              cases h
              exact .type goesOn noUsing noNamespace found
                (ih (size_typeDeclaration?_lt found) hlater)
            next noType =>
              obtain ⟨next, found, hlater⟩ := exists_of_bind_eq_ok h
              exact .item goesOn noUsing noNamespace noType found
                (ih (size_skipItem_lt goesOn.kind found) hlater)

end Stream

end DoubleDispatch
