import DoubleDispatch.Parsing.Body
import DoubleDispatch.Proofs.Parsing.BaseList

/-!
# What the parsers of bodies give

A body is read item by item, and each item leaves fewer tokens ahead. `bodyOf_eq` is the recursion
of the parser without the bounds that it carries along. By it, whatever a body comes to is found in
finitely many steps, through directives, namespaces, types and other items (`ComesTo`).

The one thing that ends a parser without a fault is a base entry that opens behind a gap, and it
ends the whole body exactly if the body comes to one: `yields_bodyOf` and
`OpensBehindGap.bodyOf_eq` are the two directions.
-/

namespace DoubleDispatch

namespace Stream

variable {source : List Char}

/-! ### Directives, namespaces and other items -/

theorem leadsTo_usingTarget? {isGlobal : Bool} {start : Nat} {s : Stream}
    {u : Parsed UsingDirective} (hs : s.In source)
    (h : s.usingTarget? source isGlobal start = some u) : s.LeadsTo u.rest := by
  have hkind (isStatic : Bool) (s : Stream) : s.LeadsTo (usingKind isStatic s).rest := by
    rw [usingKind]
    split
    · exact (LeadsTo.step s).advance
    · exact .refl
  obtain ⟨target, htarget, -, rfl⟩ := usingTarget?_eq_some_iff.1 h
  have hwords := (LeadsTo.eat s (.identifier "static")).trans (.eat _ (.identifier "unsafe"))
  have hleads := hwords.trans (hkind (s.kind.isWord "static") _)
  exact (hleads.trans (typeName?_spec (hleads.in hs) htarget).1).advance

/-- A directive leads on past its semicolon. -/
theorem leadsTo_using? {s : Stream} {u : Parsed UsingDirective} (hs : s.In source)
    (h : s.using? source = some u) : s.LeadsTo u.rest := by
  rw [using?] at h
  split at h
  · exact (LeadsTo.step s).trans (leadsTo_usingTarget? hs.advance h)
  · split at h
    · exact (LeadsTo.step s).advance.trans (leadsTo_usingTarget? hs.advance.advance h)
    · cases h

/-- The header of a namespace leads on, or has a fault at a token of the source. -/
theorem yields_namespaceHeader {s : Stream} (hs : s.In source) :
    Yields source s False (·.rest) s.namespaceHeader := by
  have hname := yields_dottedName hs
  rw [namespaceHeader]
  cases hdotted : s.dottedName with
  | error e =>
    rw [hdotted] at hname
    exact hname.error
  | ok name =>
    rw [hdotted] at hname
    have hleads : s.LeadsTo name.rest := hname
    dsimp only
    split
    · exact hleads.advance
    · exact hleads.advance
    · exact .unexpected (hleads.in hs) _

/-- Behind the content of a namespace the parser goes on. -/
theorem leadsTo_behindBody (fileScoped : Bool) (s : Stream) :
    s.LeadsTo (s.behindBody fileScoped) := by
  rw [behindBody]
  split
  · exact .refl
  · exact (LeadsTo.step s).trans (.eat _ _)

/-- An item that is skipped leads on, or is a group with a fault. -/
theorem yields_skipItem {s : Stream} (hs : s.In source) :
    Yields source s False id s.skipItem := by
  rw [skipItem]
  split
  · exact yields_skipGroup hs
  · split
    · exact .unexpected hs _
    · exact LeadsTo.step s

/-! ### Type declarations -/

/-- A header whose keyword has been read has a base list behind a mark. -/
structure BaseMark (s mark : Stream) : Prop where
  name : s.kind.name?.isSome
  parameters : ∃ parameters, s.advance.typeParameterList = .ok parameters ∧
    parameters.rest.skipParameters = .ok mark
  colon : mark.kind = .colon

/-- The header of a type that is declared here comes to the base entry behind a mark. -/
def HeaderComesTo (source : List Char) (s last : Stream) : Prop :=
  ∃ header mark, s.headerStart? source = some header ∧ BaseMark header.rest mark ∧
    EntryMark source mark last

/-- A base list leads on or has a fault, or one of its entries opens behind a gap. -/
theorem yields_baseList {s : Stream} (hs : s.In source) :
    Yields source s (s.kind = .colon ∧ ∃ last, EntryMark source s last ∧ OpensBehindGap last)
      (·.rest) (s.baseList source) := by
  rw [baseList]
  split
  next hcolon =>
    have hne : s.kind ≠ .endOfFile := by rw [hcolon]; nofun
    exact ((yields_baseEntries hs hne).imp fun h ↦ ⟨hcolon, h⟩).of_leadsTo (.step s)
  · exact LeadsTo.refl

/-- What stands behind a keyword leads on or has a fault, or a base entry opens behind a gap. -/
theorem yields_declarator {ordinal start : Nat} {header : HeaderStart} {s : Stream}
    (hs : s.In source) :
    Yields source s
      (∃ mark last, BaseMark s mark ∧ EntryMark source mark last ∧ OpensBehindGap last) (·.rest)
      (declarator source ordinal start header s) := by
  rw [declarator]
  split
  · exact .unexpected hs _
  next name hname =>
    refine .of_leadsTo (.step s) ?_
    refine ((yields_typeParameterList hs.advance).imp False.elim).bind
      fun parameters hparameters hleads ↦ ?_
    have hs₁ := hleads.in hs.advance
    refine ((yields_skipParameters hs₁).imp False.elim).bind fun mark hmark hleads ↦ ?_
    have hs₂ := LeadsTo.in hleads hs₁
    refine ((yields_baseList hs₂).imp ?_).bind fun bases _ hleads ↦ ?_
    · rintro ⟨hcolon, last, hlast, hgap⟩
      have hbase : BaseMark s mark :=
        ⟨by rw [hname]; rfl, ⟨parameters, hparameters, hmark⟩, hcolon⟩
      exact ⟨mark, last, hbase, hlast, hgap⟩
    have hs₃ := hleads.in hs₂
    refine ((yields_constraints hs₃).imp False.elim).bind fun next _ hleads ↦ ?_
    refine ((yields_typeBody name (LeadsTo.in hleads hs₃)).imp False.elim).bind fun _ _ _ ↦ ?_
    exact LeadsTo.refl

/-- A declaration ends at a base entry that opens behind a gap. -/
theorem OpensBehindGap.declarator_eq {s mark last : Stream} (h : OpensBehindGap last)
    (hlast : EntryMark source mark last) (hmark : BaseMark s mark) (hs : mark.In source)
    (ordinal start : Nat) (header : HeaderStart) :
    ∃ span, declarator source ordinal start header s = .error (.backwardEntry span) := by
  obtain ⟨hname, ⟨parameters, hparameters, hskip⟩, hcolon⟩ := hmark
  obtain ⟨name, hname⟩ := Option.isSome_iff_exists.1 hname
  obtain ⟨span, hspan⟩ := h.baseEntries_eq hlast hs (by rw [hcolon]; nofun)
  have hbases : mark.baseList source = .error (.backwardEntry span) := by
    rw [baseList, if_pos hcolon, hspan]
  refine ⟨span, ?_⟩
  simp only [declarator, hname, hparameters, ok_bind, hskip, hbases]
  rfl

/-- **A declaration leads on** or has a fault, or a base entry of its header opens behind a gap. -/
theorem yields_typeDeclaration? (ordinal : Nat) {s : Stream} (hs : s.In source) :
    Yields source s (∃ last, HeaderComesTo source s last ∧ OpensBehindGap last)
      (fun d? ↦ (d?.map (·.rest)).getD s) (s.typeDeclaration? source ordinal) := by
  rw [typeDeclaration?]
  split
  · exact LeadsTo.refl
  next header hheader =>
    have hleads := leadsTo_headerStart? hs hheader
    refine .of_leadsTo hleads (((yields_declarator (hleads.in hs)).imp ?_).map fun _ _ ↦ .refl)
    rintro ⟨mark, last, hmark, hlast, hgap⟩
    exact ⟨last, ⟨header, mark, hheader, hmark, hlast⟩, hgap⟩

/-- The mark before a base entry is ahead. -/
theorem BaseMark.leadsTo {s mark : Stream} (h : BaseMark s mark) (hs : s.In source) :
    s.LeadsTo mark := by
  obtain ⟨-, ⟨parameters, hparameters, hskip⟩, -⟩ := h
  have hleads := (LeadsTo.step s).trans ((yields_typeParameterList hs.advance).leadsTo hparameters)
  exact hleads.trans ((yields_skipParameters (hleads.in hs)).leadsTo hskip)

/-- A base entry that opens behind a gap is where the parser ends. -/
theorem OpensBehindGap.typeDeclaration?_eq {s last : Stream} (h : OpensBehindGap last)
    (hlast : HeaderComesTo source s last) (hs : s.In source) (ordinal : Nat) :
    ∃ span, s.typeDeclaration? source ordinal = .error (.backwardEntry span) := by
  obtain ⟨header, mark, hheader, hmark, hlast⟩ := hlast
  have hrest := (leadsTo_headerStart? hs hheader).in hs
  obtain ⟨span, hspan⟩ := h.declarator_eq hlast hmark ((hmark.leadsTo hrest).in hrest) ordinal
    s.start header.value
  refine ⟨span, ?_⟩
  rw [typeDeclaration?, hheader]
  dsimp only
  rw [hspan]
  rfl

/-! ### Bodies -/

/-- The body that starts here, without the bound on what it leaves ahead. -/
def bodyOf (source : List Char) (braced : Bool) (ordinal : Nat) (s : Stream) :
    Except ParseError Body :=
  (·.1) <$> body source braced ordinal s

/-- A namespace with its content, before the members behind it. -/
def Body.behindScope (later content : Body) (header : String × Bool) (start : Nat) : Body :=
  { later with members := content.toScope header start :: later.members }

/-- The body that starts with a namespace here. -/
def bodyFromNamespace (source : List Char) (braced : Bool) (ordinal : Nat) (s : Stream) :
    Except ParseError Body := do
  let header ← s.advance.namespaceHeader
  let content ← bodyOf source (braced || !header.value.2) ordinal header.rest
  let later ← bodyOf source braced content.ordinal (content.rest.behindBody header.value.2)
  return later.behindScope content header.value s.start

/-- The body that starts with a type or another item here. -/
def bodyFromType (source : List Char) (braced : Bool) (ordinal : Nat) (s : Stream) :
    Except ParseError Body :=
  match s.typeDeclaration? source ordinal with
  | .error e => .error e
  | .ok (some declaration) => do
    let later ← bodyOf source braced (ordinal + 1) declaration.rest
    return { later with members := .type declaration.value :: later.members }
  | .ok none => s.skipItem >>= bodyOf source braced ordinal

/-- **The recursion of the parser**: a body ends, or goes on behind its first item. -/
theorem bodyOf_eq (braced : Bool) (ordinal : Nat) (s : Stream) :
    bodyOf source braced ordinal s =
      if s.endsBody braced then .ok ⟨[], [], ordinal, s⟩
      else if s.kind = .endOfFile then .error (s.unexpected (.token .closeBrace))
      else
        match s.using? source with
        | some directive => do
          let later ← bodyOf source braced ordinal directive.rest
          return { later with usings := directive.value :: later.usings }
        | none =>
          if s.kind.isWord "namespace" then bodyFromNamespace source braced ordinal s
          else bodyFromType source braced ordinal s := by
  rw [bodyOf, body]
  -- Item by item both sides do the same; only the bound that `body` returns is dropped.
  split
  · rfl
  split
  · rfl
  split
  next directive hdirective =>
    conv => rhs; rw [hdirective]
    dsimp only [bodyOf]
    cases body source braced ordinal directive.rest <;> rfl
  next hnone =>
    conv => rhs; rw [hnone]
    dsimp only
    split
    · rw [bodyFromNamespace]
      split
      next e he =>
        conv => rhs; rw [he]
        rfl
      next header hheader =>
        conv => rhs; rw [hheader]
        rw [ok_bind]
        dsimp only [bodyOf]
        rcases body source (braced || !header.value.2) ordinal header.rest with e | ⟨content, hle⟩
        · rfl
        · dsimp only
          show _ = (_ <$> body source braced content.ordinal _) >>= _
          cases body source braced content.ordinal (content.rest.behindBody header.value.2) <;> rfl
    · rw [bodyFromType]
      split
      next e he =>
        conv => rhs; rw [he]
        rfl
      next declaration hdeclaration =>
        conv => rhs; rw [hdeclaration]
        dsimp only [bodyOf]
        cases body source braced (ordinal + 1) declaration.rest <;> rfl
      next hnone =>
        conv => rhs; rw [hnone]
        dsimp only
        split
        next e he =>
          rw [he]
          rfl
        next next hnext =>
          conv => rhs; rw [hnext]
          rw [ok_bind, bodyOf]
          cases body source braced ordinal next <;> rfl

/-- A body takes no token that is not ahead. -/
theorem size_bodyOf_le {braced : Bool} {ordinal : Nat} {s : Stream} {b : Body}
    (h : bodyOf source braced ordinal s = .ok b) : b.rest.size ≤ s.size := by
  cases hb : body source braced ordinal s with
  | error e => rw [bodyOf, hb] at h; cases h
  | ok b' =>
    rw [bodyOf, hb] at h
    cases h
    exact b'.2

/-- A body goes on here: neither its own end nor that of the file is reached. -/
structure GoesOn (braced : Bool) (s : Stream) : Prop where
  endsBody : s.endsBody braced = false
  kind : s.kind ≠ .endOfFile

/-- A body goes on at every token that closes nothing. -/
theorem goesOn_of_kind {braced : Bool} {s : Stream}
    (hcloser : s.kind.isCloser = false) (hend : s.kind ≠ .endOfFile) : GoesOn braced s := by
  refine ⟨?_, hend⟩
  rw [endsBody]
  cases braced with
  | false => simpa using hend
  | true =>
    rw [if_pos rfl, beq_eq_false_iff_ne]
    intro hkind
    rw [hkind] at hcloser
    cases hcloser

section Equations

variable {braced : Bool} {ordinal : Nat} {s : Stream}

/-- No directive starts with a bracket, nor with a word that is neither `using` nor `global`. -/
theorem using?_eq_none (h : s.kind = .openBracket ∨
    ∃ word, s.kind = .identifier word ∧ word ≠ "using" ∧ word ≠ "global") :
    s.using? source = none := by
  rcases h with h | ⟨word, h, husing, hglobal⟩
  · simp [Stream.using?, h, TokenKind.isWord]
  · simp [Stream.using?, h, TokenKind.isWord, husing, hglobal]

/-- A body that starts with a directive goes on behind it. -/
theorem GoesOn.bodyOf_using (h : GoesOn braced s) {directive : Parsed UsingDirective}
    (found : s.using? source = some directive) :
    bodyOf source braced ordinal s = (do
      let later ← bodyOf source braced ordinal directive.rest
      return { later with usings := directive.value :: later.usings }) := by
  rw [bodyOf_eq, if_neg (by rw [h.endsBody]; nofun), if_neg h.kind, found]

/-- A body whose first item is a namespace goes on in it. -/
theorem GoesOn.bodyOf_namespace (h : GoesOn braced s) (noUsing : s.using? source = none)
    (word : s.kind.isWord "namespace" = true) :
    bodyOf source braced ordinal s = bodyFromNamespace source braced ordinal s := by
  rw [bodyOf_eq, if_neg (by rw [h.endsBody]; nofun), if_neg h.kind, noUsing]
  exact if_pos word

/-- A body whose first item is no directive and no namespace starts with a type, or skips the item.
-/
theorem GoesOn.bodyOf_type (h : GoesOn braced s) (noUsing : s.using? source = none)
    (noNamespace : s.kind.isWord "namespace" = false) :
    bodyOf source braced ordinal s = bodyFromType source braced ordinal s := by
  rw [bodyOf_eq, if_neg (by rw [h.endsBody]; nofun), if_neg h.kind, noUsing]
  exact if_neg (by rw [noNamespace]; nofun)

end Equations

/-- The body that starts here comes to the base entry behind a mark: in the header of a type, behind
a directive, in a namespace or behind it, behind a type, or behind another item. -/
inductive ComesTo (source : List Char) : Bool → Nat → Stream → Stream → Prop
  | header {braced : Bool} {ordinal : Nat} {s last : Stream} (goesOn : GoesOn braced s)
      (noUsing : s.using? source = none) (noNamespace : s.kind.isWord "namespace" = false)
      (h : HeaderComesTo source s last) :
    ComesTo source braced ordinal s last
  | behindUsing {braced : Bool} {ordinal : Nat} {s last : Stream}
      {directive : Parsed UsingDirective} (goesOn : GoesOn braced s)
      (found : s.using? source = some directive)
      (h : ComesTo source braced ordinal directive.rest last) :
    ComesTo source braced ordinal s last
  | inNamespace {braced : Bool} {ordinal : Nat} {s last : Stream}
      {header : Parsed (String × Bool)} (goesOn : GoesOn braced s)
      (noUsing : s.using? source = none) (word : s.kind.isWord "namespace" = true)
      (found : s.advance.namespaceHeader = .ok header)
      (h : ComesTo source (braced || !header.value.2) ordinal header.rest last) :
    ComesTo source braced ordinal s last
  | behindNamespace {braced : Bool} {ordinal : Nat} {s last : Stream}
      {header : Parsed (String × Bool)} {content : Body} (goesOn : GoesOn braced s)
      (noUsing : s.using? source = none) (word : s.kind.isWord "namespace" = true)
      (found : s.advance.namespaceHeader = .ok header)
      (read : bodyOf source (braced || !header.value.2) ordinal header.rest = .ok content)
      (h : ComesTo source braced content.ordinal (content.rest.behindBody header.value.2) last) :
    ComesTo source braced ordinal s last
  | behindType {braced : Bool} {ordinal : Nat} {s last : Stream}
      {declaration : Parsed TypeDeclaration} (goesOn : GoesOn braced s)
      (noUsing : s.using? source = none) (noNamespace : s.kind.isWord "namespace" = false)
      (found : s.typeDeclaration? source ordinal = .ok (some declaration))
      (h : ComesTo source braced (ordinal + 1) declaration.rest last) :
    ComesTo source braced ordinal s last
  | behindItem {braced : Bool} {ordinal : Nat} {s next last : Stream} (goesOn : GoesOn braced s)
      (noUsing : s.using? source = none) (noNamespace : s.kind.isWord "namespace" = false)
      (noType : s.typeDeclaration? source ordinal = .ok none) (found : s.skipItem = .ok next)
      (h : ComesTo source braced ordinal next last) :
    ComesTo source braced ordinal s last

/-- What a body gives that starts at a stream. -/
def BodyYields (source : List Char) (s : Stream) : Prop :=
  ∀ braced ordinal, Yields source s
    (∃ last, ComesTo source braced ordinal s last ∧ OpensBehindGap last) (·.rest)
    (bodyOf source braced ordinal s)

section Items

variable {braced : Bool} {ordinal : Nat} {s : Stream}

/-- A body that starts with a namespace yields what its content and what follows yield. -/
theorem yields_bodyFromNamespace (hs : s.In source) (goesOn : GoesOn braced s)
    (noUsing : s.using? source = none) (word : s.kind.isWord "namespace" = true)
    (ih : ∀ t : Stream, t.size < s.size → t.In source → BodyYields source t) :
    Yields source s (∃ last, ComesTo source braced ordinal s last ∧ OpensBehindGap last) (·.rest)
      (bodyFromNamespace source braced ordinal s) := by
  refine .of_leadsTo (.step s) ?_
  refine ((yields_namespaceHeader hs.advance).imp False.elim).bind fun header hheader hleads ↦ ?_
  have hsize : header.rest.size < s.size :=
    Nat.lt_of_lt_of_le (size_namespaceHeader_lt hheader) s.size_advance_le
  have hrest := hleads.in hs.advance
  refine ((ih _ hsize hrest _ _).imp ?_).bind fun content hcontent hleads ↦ ?_
  · rintro ⟨last, hlast, hgap⟩
    exact ⟨last, .inNamespace goesOn noUsing word hheader hlast, hgap⟩
  have hbehind := leadsTo_behindBody header.value.2 content.rest
  have hsize' : (content.rest.behindBody header.value.2).size < s.size :=
    Nat.lt_of_le_of_lt (Nat.le_trans (size_behindBody_le _ _) (size_bodyOf_le hcontent)) hsize
  have hlater := ih _ hsize' ((hleads.trans hbehind).in hrest) braced content.ordinal
  refine .of_leadsTo hbehind ((hlater.imp ?_).bind fun _ _ _ ↦ LeadsTo.refl)
  rintro ⟨last, hlast, hgap⟩
  exact ⟨last, .behindNamespace goesOn noUsing word hheader hcontent hlast, hgap⟩

/-- A body that starts with a type yields what the type and what follows yield. -/
theorem yields_bodyFromType (hs : s.In source) (goesOn : GoesOn braced s)
    (noUsing : s.using? source = none) (noNamespace : s.kind.isWord "namespace" = false)
    (ih : ∀ t : Stream, t.size < s.size → t.In source → BodyYields source t) :
    Yields source s (∃ last, ComesTo source braced ordinal s last ∧ OpensBehindGap last) (·.rest)
      (bodyFromType source braced ordinal s) := by
  have htype := yields_typeDeclaration? ordinal hs
  rw [bodyFromType]
  split
  next e he =>
    rw [he] at htype
    refine htype.error.imp ?_
    rintro ⟨last, hlast, hgap⟩
    exact ⟨last, .header goesOn noUsing noNamespace hlast, hgap⟩
  next declaration hdeclaration =>
    rw [hdeclaration] at htype
    have hleads : s.LeadsTo declaration.rest := htype
    have hlater := ih _ (size_typeDeclaration?_lt hdeclaration) (hleads.in hs) braced (ordinal + 1)
    refine .of_leadsTo hleads ((hlater.imp ?_).bind fun _ _ _ ↦ LeadsTo.refl)
    rintro ⟨last, hlast, hgap⟩
    exact ⟨last, .behindType goesOn noUsing noNamespace hdeclaration hlast, hgap⟩
  next hnone =>
    refine ((yields_skipItem hs).imp False.elim).bind fun next hnext hleads ↦ ?_
    have hlater := ih _ (size_skipItem_lt goesOn.kind hnext) (LeadsTo.in hleads hs) braced ordinal
    refine hlater.imp ?_
    rintro ⟨last, hlast, hgap⟩
    exact ⟨last, .behindItem goesOn noUsing noNamespace hnone hnext hlast, hgap⟩

end Items

/-- **What a body gives**: its content, a fault, or an end at an entry that opens behind a gap. -/
theorem yields_bodyOf {s : Stream} (hs : s.In source) : BodyYields source s := by
  -- The induction is on the number of tokens ahead: what a namespace contains, and what follows
  -- behind it, are bodies that start anywhere further on.
  induction hn : s.size using Nat.strongRecOn generalizing s with
  | ind n ih =>
    subst hn
    have ih (t : Stream) (hlt : t.size < s.size) (ht : t.In source) : BodyYields source t :=
      ih t.size hlt ht rfl
    intro braced ordinal
    rw [bodyOf_eq]
    split
    · exact LeadsTo.refl
    next hends =>
      split
      · exact .unexpected hs _
      next hkind =>
        have goesOn : GoesOn braced s := ⟨by simpa using hends, hkind⟩
        split
        next directive hdirective =>
          have hleads := leadsTo_using? hs hdirective
          have hlater := ih _ (size_using?_lt hdirective) (hleads.in hs) braced ordinal
          refine .of_leadsTo hleads ((hlater.imp ?_).bind fun _ _ _ ↦ LeadsTo.refl)
          rintro ⟨last, hlast, hgap⟩
          exact ⟨last, .behindUsing goesOn hdirective hlast, hgap⟩
        next hnone =>
          split
          next hword => exact yields_bodyFromNamespace hs goesOn hnone hword ih
          next hword => exact yields_bodyFromType hs goesOn hnone (by simpa using hword) ih

/-- A body ends at a base entry that opens behind a gap. -/
theorem OpensBehindGap.bodyOf_eq {braced : Bool} {ordinal : Nat} {s last : Stream}
    (h : OpensBehindGap last) (hlast : ComesTo source braced ordinal s last) (hs : s.In source) :
    ∃ span, bodyOf source braced ordinal s = .error (.backwardEntry span) := by
  induction hlast with
  | @header _ ordinal _ _ goesOn noUsing noNamespace hheader =>
    obtain ⟨span, hspan⟩ := h.typeDeclaration?_eq hheader hs ordinal
    refine ⟨span, ?_⟩
    rw [goesOn.bodyOf_type noUsing noNamespace, bodyFromType, hspan]
  | behindUsing goesOn found _ ih =>
    obtain ⟨span, hspan⟩ := ih h ((leadsTo_using? hs found).in hs)
    refine ⟨span, ?_⟩
    rw [goesOn.bodyOf_using found, hspan]
    rfl
  | inNamespace goesOn noUsing word found _ ih =>
    have hrest := ((yields_namespaceHeader hs.advance).leadsTo found).in hs.advance
    obtain ⟨span, hspan⟩ := ih h hrest
    refine ⟨span, ?_⟩
    rw [goesOn.bodyOf_namespace noUsing word, bodyFromNamespace, found, ok_bind, hspan]
    rfl
  | @behindNamespace _ _ _ _ header content goesOn noUsing word found read _ ih =>
    have hrest := ((yields_namespaceHeader hs.advance).leadsTo found).in hs.advance
    -- The content was read, so it leads to what is behind the namespace.
    have hleads := ((yields_bodyOf hrest _ _).leadsTo read).trans
      (leadsTo_behindBody header.value.2 content.rest)
    obtain ⟨span, hspan⟩ := ih h (hleads.in hrest)
    refine ⟨span, ?_⟩
    rw [goesOn.bodyOf_namespace noUsing word, bodyFromNamespace, found, ok_bind, read, ok_bind,
      hspan]
    rfl
  | @behindType _ ordinal _ _ _ goesOn noUsing noNamespace found _ ih =>
    have hleads := (yields_typeDeclaration? ordinal hs).leadsTo found
    obtain ⟨span, hspan⟩ := ih h (LeadsTo.in hleads hs)
    refine ⟨span, ?_⟩
    rw [goesOn.bodyOf_type noUsing noNamespace, bodyFromType, found]
    dsimp only
    rw [hspan]
    rfl
  | behindItem goesOn noUsing noNamespace noType found _ ih =>
    obtain ⟨span, hspan⟩ := ih h (((yields_skipItem hs).leadsTo found).in hs)
    refine ⟨span, ?_⟩
    rw [goesOn.bodyOf_type noUsing noNamespace, bodyFromType, noType]
    dsimp only
    rw [found, ok_bind, hspan]

end Stream

end DoubleDispatch
