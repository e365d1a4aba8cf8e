import DoubleDispatch.Proofs.Parsing.Passage
import DoubleDispatch.Proofs.Printing.Names

/-!
# Type names as they are written

What may be written for a type name: names may be qualified and carry type arguments, and those may
be arrays, tuples, pointers and nullable types (`IsTypePhrase`). The automaton that reads names
knows words, marks and angle brackets but no groups. So a name is read to its end if no group and no
pointer is written in it (`Stream.leads_of_isTypePhrase`), and otherwise the reading stops inside
the angle brackets (`Stream.stopsInside_of_isTypePhrase`), where no name is complete.
-/

namespace DoubleDispatch

/-! ### Type names -/

/-- A token of a kind that the reading of a name knows. -/
def TokenKind.isInName : TokenKind → Bool
  | identifier _ | dot | doubleColon | less | greater | comma | question => true
  | _ => false

/-- The parts of a type name. -/
inductive TypePhrase where
  | name
  | type
  | arguments
deriving DecidableEq, Repr

/-- Tokens that are written for a part of a type name: names may be qualified and carry type
arguments, and a type argument may be a named type, a tuple, an array, or nullable or a pointer. -/
inductive IsTypePhrase : TypePhrase → List Token → Prop
  | simple {word : Token} (hword : word.kind.isIdentifier = true) : IsTypePhrase .name [word]
  | generic {word less greater : Token} {arguments : List Token}
      (hword : word.kind.isIdentifier = true) (hless : less.kind = .less)
      (harguments : IsTypePhrase .arguments arguments) (hgreater : greater.kind = .greater) :
    IsTypePhrase .name (word :: less :: arguments ++ [greater])
  | qualified {outer inner : List Token} {joint : Token} (houter : IsTypePhrase .name outer)
      (hjoint : joint.kind = .dot ∨ joint.kind = .doubleColon)
      (hinner : IsTypePhrase .name inner) :
    IsTypePhrase .name (outer ++ joint :: inner)
  | named {name : List Token} (hname : IsTypePhrase .name name) : IsTypePhrase .type name
  | tuple {group : List Token} (hgroup : IsGroupIn .openParen group) : IsTypePhrase .type group
  | array {element group : List Token} (helement : IsTypePhrase .type element)
      (hgroup : IsGroupIn .openBracket group) :
    IsTypePhrase .type (element ++ group)
  | nullable {element : List Token} {mark : Token} (helement : IsTypePhrase .type element)
      (hmark : mark.kind = .question) :
    IsTypePhrase .type (element ++ [mark])
  | pointer {element : List Token} {mark : Token} (helement : IsTypePhrase .type element)
      (hmark : mark.kind = .punct '*') :
    IsTypePhrase .type (element ++ [mark])
  | last {argument : List Token} (hargument : IsTypePhrase .type argument) :
    IsTypePhrase .arguments argument
  | more {argument later : List Token} {comma : Token} (hargument : IsTypePhrase .type argument)
      (hcomma : comma.kind = .comma) (hlater : IsTypePhrase .arguments later) :
    IsTypePhrase .arguments (argument ++ comma :: later)

namespace Stream

namespace NameState

/-- Some tokens are read from one state to another, whatever follows. -/
def Leads (st st' : NameState) (tokens : List Token) : Prop :=
  ∀ prevEnd ts, readName st prevEnd (tokens ++ ts) = readName st' (stopBehind prevEnd tokens) ts

/-- Some tokens are not read to their end, and the reading stops inside angle brackets. -/
def StopsInside (st : NameState) (tokens : List Token) : Prop :=
  ∀ prevEnd ts, 0 < (readName st prevEnd (tokens ++ ts)).value.depth

section Steps

variable {st st' st'' : NameState} {t : Token} {tokens later : List Token}

/-- A token leads from a state to the next one. -/
theorem Leads.one (h : st.next? t.kind = some st') : Leads st st' [t] :=
  fun prevEnd ts ↦ readName_cons h prevEnd ts

/-- Tokens lead on from where the ones before them lead. -/
theorem Leads.append (h : Leads st st' tokens) (hlater : Leads st' st'' later) :
    Leads st st'' (tokens ++ later) := fun prevEnd ts ↦ by
  rw [List.append_assoc, h, hlater, stopBehind_append]

/-- A name that stops inside later tokens stops inside all of them. -/
theorem Leads.stopsInside (h : Leads st st' tokens) (hlater : StopsInside st' later) :
    StopsInside st (tokens ++ later) := fun prevEnd ts ↦ by
  rw [List.append_assoc, h]
  exact hlater _ ts

/-- Where a name stops, it does not matter what follows. -/
theorem StopsInside.append (h : StopsInside st tokens) (later : List Token) :
    StopsInside st (tokens ++ later) := fun prevEnd ts ↦ by
  rw [List.append_assoc]
  exact h prevEnd _

/-- What is not known to the reading of names stops it. -/
theorem StopsInside.of_unknown (hdepth : 0 < st.depth) (ht : t.kind.isInName = false)
    (later : List Token) : StopsInside st (t :: later) := fun prevEnd ts ↦ by
  have hnext : st.next? t.kind = none := by
    revert ht
    cases t.kind <;> first | exact fun _ ↦ rfl | exact fun h ↦ nomatch h
  rw [List.cons_append, readName, hnext]
  exact hdepth

/-- A word is taken where one is awaited, and anywhere in angle brackets. -/
theorem Leads.word {word : Token} (hword : word.kind.isIdentifier = true) {depth : Nat}
    {awaits : Bool} (hgoes : awaits = true ∨ 0 < depth) :
    Leads ⟨depth, awaits⟩ ⟨depth, false⟩ [word] := .one <| by
  cases hkind : word.kind with
  | identifier name => exact next?_identifier hgoes name
  | _ => rw [hkind] at hword; cases hword

/-- Behind a dot or a double colon a word is awaited. -/
theorem Leads.joint {joint : Token} (hjoint : joint.kind = .dot ∨ joint.kind = .doubleColon)
    (depth : Nat) : Leads ⟨depth, false⟩ ⟨depth, true⟩ [joint] := .one <| by
  rcases hjoint with hjoint | hjoint
  · rw [hjoint]; rfl
  · rw [hjoint]; rfl

/-- An opening angle bracket is taken behind a word. -/
theorem Leads.less {less : Token} (hless : less.kind = .less) (depth : Nat) :
    Leads ⟨depth, false⟩ ⟨depth + 1, true⟩ [less] := .one <| by
  rw [hless]
  rfl

/-- A closing angle bracket is taken where one is open. -/
theorem Leads.greater {greater : Token} (hgreater : greater.kind = .greater) (depth : Nat) :
    Leads ⟨depth + 1, false⟩ ⟨depth, false⟩ [greater] := .one <| by
  rw [hgreater]
  rfl

/-- Commas and question marks are taken inside angle brackets, and change nothing. -/
theorem Leads.inside {mark : Token} (hmark : mark.kind = .comma ∨ mark.kind = .question)
    {depth : Nat} (hdepth : 0 < depth) : Leads ⟨depth, false⟩ ⟨depth, false⟩ [mark] := .one <| by
  rcases hmark with hmark | hmark
  · rw [hmark]; exact if_pos hdepth
  · rw [hmark]; exact if_pos hdepth

end Steps

end NameState

open NameState

/-- The reading of names knows all of some tokens. -/
def isKnown (tokens : List Token) : Bool := tokens.all (·.kind.isInName)

@[simp] theorem isKnown_nil : isKnown [] = true := rfl

@[simp] theorem isKnown_cons (t : Token) (ts : List Token) :
    isKnown (t :: ts) = (t.kind.isInName && isKnown ts) := rfl

@[simp] theorem isKnown_append (ts us : List Token) :
    isKnown (ts ++ us) = (isKnown ts && isKnown us) :=
  List.all_append

/-- An identifier may stand in a name. -/
theorem isInName_of_isIdentifier {kind : TokenKind} (h : kind.isIdentifier = true) :
    kind.isInName = true := by
  cases kind with
  | identifier => rfl
  | _ => cases h

theorem isInName_joint {kind : TokenKind} (h : kind = .dot ∨ kind = .doubleColon) :
    kind.isInName = true := by
  rcases h with rfl | rfl
  · rfl
  · rfl

/-- The reading of names does not know groups. -/
theorem exists_unknown_of_isGroupIn {opener : TokenKind} {group : List Token}
    (h : IsGroupIn opener group) (hopener : opener.isInName = false) :
    ∃ t later, group = t :: later ∧ t.kind.isInName = false := by
  obtain ⟨t, later, rfl, hkind⟩ := h.starts
  exact ⟨t, later, rfl, by rw [hkind, hopener]⟩

/-- **A phrase is read as a whole** if the reading of names knows all that is in it. -/
theorem leads_of_isTypePhrase {phrase : TypePhrase} {tokens : List Token}
    (h : IsTypePhrase phrase tokens) (hknown : isKnown tokens = true) {depth : Nat} {awaits : Bool}
    (hgoes : awaits = true ∨ 0 < depth) (hdepth : phrase ≠ .name → 0 < depth) :
    Leads ⟨depth, awaits⟩ ⟨depth, false⟩ tokens := by
  induction h generalizing depth awaits with
  | simple hword => exact .word hword hgoes
  | generic hword hless _ hgreater ih =>
    simp only [isKnown_append, isKnown_cons, Bool.and_eq_true] at hknown
    have harguments := ih hknown.1.2.2 (.inl rfl) fun _ ↦ Nat.succ_pos depth
    exact (Leads.word hword hgoes).append
      ((Leads.less hless depth).append (harguments.append (.greater hgreater depth)))
  | qualified _ hjoint _ ihouter ihinner =>
    simp only [isKnown_append, isKnown_cons, Bool.and_eq_true] at hknown
    have houter := ihouter hknown.1 hgoes nofun
    exact houter.append ((Leads.joint hjoint depth).append (ihinner hknown.2.2 (.inl rfl) nofun))
  | named _ ih => exact ih hknown hgoes nofun
  | tuple hgroup =>
    obtain ⟨t, later, rfl, hunknown⟩ := exists_unknown_of_isGroupIn hgroup rfl
    simp [hunknown] at hknown
  | array _ hgroup =>
    obtain ⟨t, later, rfl, hunknown⟩ := exists_unknown_of_isGroupIn hgroup rfl
    simp [hunknown] at hknown
  | nullable _ hmark ih =>
    simp only [isKnown_append, Bool.and_eq_true] at hknown
    exact (ih hknown.1 hgoes hdepth).append (.inside (.inr hmark) (hdepth nofun))
  | pointer _ hmark _ => simp [hmark, TokenKind.isInName] at hknown
  | last _ ih => exact ih hknown hgoes fun _ ↦ hdepth nofun
  | more _ hcomma _ ihargument ihlater =>
    simp only [isKnown_append, isKnown_cons, Bool.and_eq_true] at hknown
    have hargument := ihargument hknown.1 hgoes fun _ ↦ hdepth nofun
    exact hargument.append ((Leads.inside (.inl hcomma) (hdepth nofun)).append
      (ihlater hknown.2.2 (.inr (hdepth nofun)) fun _ ↦ hdepth nofun))

/-- **Any other phrase is not read to its end**, and the reading stops inside angle brackets. -/
theorem stopsInside_of_isTypePhrase {phrase : TypePhrase} {tokens : List Token}
    (h : IsTypePhrase phrase tokens) (hunknown : isKnown tokens = false) {depth : Nat}
    {awaits : Bool} (hgoes : awaits = true ∨ 0 < depth) (hdepth : phrase ≠ .name → 0 < depth) :
    StopsInside ⟨depth, awaits⟩ tokens := by
  induction h generalizing depth awaits with
  | simple hword => simp [isInName_of_isIdentifier hword] at hunknown
  | @generic _ _ _ arguments hword hless _ hgreater ih =>
    have harguments : isKnown arguments = false := by
      have hless : TokenKind.isInName .less = true := rfl
      have hgreater : TokenKind.isInName .greater = true := rfl
      simpa [isInName_of_isIdentifier hword, *] using hunknown
    exact (Leads.word hword hgoes).stopsInside ((Leads.less hless depth).stopsInside
      ((ih harguments (.inl rfl) fun _ ↦ Nat.succ_pos depth).append [_]))
  | @qualified outer inner _ houter hjoint _ ihouter ihinner =>
    cases hfirst : isKnown outer with
    | false => exact (ihouter hfirst hgoes nofun).append _
    | true =>
      have hinner : isKnown inner = false := by
        simpa [hfirst, isInName_joint hjoint] using hunknown
      exact (leads_of_isTypePhrase houter hfirst hgoes nofun).stopsInside
        ((Leads.joint hjoint depth).stopsInside (ihinner hinner (.inl rfl) nofun))
  | named _ ih => exact ih hunknown hgoes nofun
  | tuple hgroup =>
    obtain ⟨t, later, rfl, hfalse⟩ := exists_unknown_of_isGroupIn hgroup rfl
    exact .of_unknown (hdepth nofun) hfalse later
  | @array element _ helement hgroup ih =>
    obtain ⟨t, later, rfl, hfalse⟩ := exists_unknown_of_isGroupIn hgroup rfl
    cases hfirst : isKnown element with
    | false => exact (ih hfirst hgoes hdepth).append _
    | true =>
      exact (leads_of_isTypePhrase helement hfirst hgoes hdepth).stopsInside
        (.of_unknown (hdepth nofun) hfalse later)
  | @nullable element _ _ hmark ih =>
    have helement : isKnown element = false := by
      simpa [hmark, TokenKind.isInName] using hunknown
    exact (ih helement hgoes hdepth).append _
  | @pointer element _ helement hmark ih =>
    cases hfirst : isKnown element with
    | false => exact (ih hfirst hgoes hdepth).append _
    | true =>
      exact (leads_of_isTypePhrase helement hfirst hgoes hdepth).stopsInside
        (.of_unknown (hdepth nofun) (by rw [hmark]; rfl) [])
  | last _ ih => exact ih hunknown hgoes fun _ ↦ hdepth nofun
  | @more argument later _ hargument hcomma _ ihargument ihlater =>
    cases hfirst : isKnown argument with
    | false => exact (ihargument hfirst hgoes fun _ ↦ hdepth nofun).append _
    | true =>
      have hlater : isKnown later = false := by
        simpa [hfirst, hcomma, TokenKind.isInName] using hunknown
      exact (leads_of_isTypePhrase hargument hfirst hgoes fun _ ↦ hdepth nofun).stopsInside
        ((Leads.inside (.inl hcomma) (hdepth nofun)).stopsInside
          (ihlater hlater (.inr (hdepth nofun)) fun _ ↦ hdepth nofun))

end Stream

end DoubleDispatch
