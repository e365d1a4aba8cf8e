import DoubleDispatch.Parsing.Name
import DoubleDispatch.Parsing.Group
import DoubleDispatch.Proofs.Token.Progress

/-!
# Streams in a source

A parser moves through the tokens of a source in one way only, by taking the next one. So wherever
it comes to from a stream is led to by single tokens (`Stream.LeadsTo`), and two invariants hold
there as they do at the start (`Stream.In`): the tokens ahead stand in the source, and the last
token taken ended between two characters before all of them.

`Stream.Yields` says what a parser may give: a result behind some of the tokens ahead, a fault
whose span fits the source, or, where it is allowed to, the text of a base entry that would end
before it starts. It is stated once for each parser; composition is `Yields.bind`.
-/

namespace DoubleDispatch

open Text (byteLength IsBoundary)

namespace Stream

/-! ### Streams and tokens -/

/-- There is no step behind the end of the file. -/
theorem advance_of_endOfFile {s : Stream} (h : s.kind = .endOfFile) : s.advance = s := by
  obtain ⟨_ | ⟨t, ts⟩, prevEnd⟩ := s
  · rfl
  · exact if_pos h

theorem advance_cons {t : Token} (h : t.kind ≠ .endOfFile) (ts : List Token) (prevEnd : Nat) :
    advance ⟨t :: ts, prevEnd⟩ = ⟨ts, t.span.stop⟩ :=
  if_neg h

/-- Taking a token moves the end of the last one taken to the end of that token. -/
theorem prevEnd_advance {s : Stream} (h : s.kind ≠ .endOfFile) :
    s.advance.prevEnd = s.span.stop := by
  obtain ⟨_ | ⟨t, ts⟩, prevEnd⟩ := s
  · exact absurd rfl h
  · rw [advance_cons h]
    rfl

/-- The second kind is what stands in front behind one step. -/
theorem secondKind_eq_kind_advance {s : Stream} (h : s.kind ≠ .endOfFile) :
    s.secondKind = s.advance.kind := by
  obtain ⟨_ | ⟨t, ts⟩, prevEnd⟩ := s
  · exact absurd rfl h
  · rw [advance_cons h]
    cases ts <;> rfl

/-- Where no dot stands first, none is next. -/
theorem kind_ne_dot {ts : List Token} (prevEnd : Nat)
    (hdot : ∀ span later, ts = ⟨.dot, span⟩ :: later → False) :
    Stream.kind ⟨ts, prevEnd⟩ ≠ .dot := by
  intro hkind
  obtain _ | ⟨⟨kind, span⟩, ts⟩ := ts
  · cases hkind
  · obtain rfl : kind = .dot := hkind
    exact hdot span ts rfl

/-- The last part of a dotted name. -/
theorem identifiers_last {s : Stream} {name : String} (hname : s.kind = .identifier name)
    (hdot : s.advance.kind ≠ .dot) : identifiers s.prevEnd s.ahead = .ok ⟨[name], s.advance⟩ := by
  obtain ⟨_ | ⟨⟨kind, span⟩, ts⟩, prevEnd⟩ := s
  · cases hname
  · obtain rfl : kind = _ := hname
    rw [advance_cons (by nofun)] at hdot ⊢
    rw [identifiers]
    rintro dotSpan later rfl
    exact hdot rfl

/-- A part of a dotted name behind which another one follows. -/
theorem identifiers_dot {s : Stream} {name : String} (hname : s.kind = .identifier name)
    (hdot : s.advance.kind = .dot) :
    identifiers s.prevEnd s.ahead = (do
      let names ← identifiers s.advance.advance.prevEnd s.advance.advance.ahead
      return ⟨name :: names.value, names.rest⟩) := by
  obtain ⟨_ | ⟨⟨kind, span⟩, ts⟩, prevEnd⟩ := s
  · cases hname
  · obtain rfl : kind = _ := hname
    rw [advance_cons (by nofun)] at hdot ⊢
    obtain _ | ⟨⟨second, dotSpan⟩, ts⟩ := ts
    · cases hdot
    · obtain rfl : second = _ := hdot
      rw [advance_cons (by nofun), identifiers]

/-- A stream stands in a source: the tokens ahead do, and behind the last one taken there is a
boundary before all of them. -/
structure In (source : List Char) (s : Stream) : Prop where
  prevEnd : IsBoundary source s.prevEnd
  ahead : TokensFrom source s.prevEnd s.ahead

namespace In

variable {source : List Char} {s : Stream}

/-- The token in front of a stream of the source lies within the source. -/
theorem span_fits (h : s.In source) : s.span.Fits source := by
  obtain ⟨_ | ⟨t, ts⟩, prevEnd⟩ := s
  · cases h.ahead
  · cases h.ahead with
    | endOfFile => exact ⟨Nat.le_refl _, .byteLength source, .byteLength source⟩
    | cons _ _ stands => exact stands.fits

theorem prevEnd_le_start (h : s.In source) : s.prevEnd ≤ s.start := by
  obtain ⟨_ | ⟨t, ts⟩, prevEnd⟩ := s
  · cases h.ahead
  · cases h.ahead with
    | endOfFile start => exact start
    | cons _ start => exact start

/-- A step stays within the source. -/
protected theorem advance (h : s.In source) : s.advance.In source := by
  by_cases hk : s.kind = .endOfFile
  · rwa [advance_of_endOfFile hk]
  · obtain ⟨_ | ⟨t, ts⟩, prevEnd⟩ := s
    · cases h.ahead
    · rw [advance_cons hk]
      cases h.ahead with
      | endOfFile => exact absurd rfl hk
      | cons _ _ stands later => exact ⟨stands.fits.stop, later⟩

end In

/-! ### Taking tokens -/

/-- From the first stream to the second, tokens were taken. -/
inductive LeadsTo (s : Stream) : Stream → Prop
  | refl : LeadsTo s s
  | advance {t : Stream} (h : LeadsTo s t) : LeadsTo s t.advance

namespace LeadsTo

variable {source : List Char} {s t u : Stream}

/-- Leading forward is transitive. -/
theorem trans (hst : s.LeadsTo t) (htu : t.LeadsTo u) : s.LeadsTo u := by
  induction htu with
  | refl => exact hst
  | advance _ ih => exact ih.advance

/-- One token is taken. -/
theorem step (s : Stream) : s.LeadsTo s.advance := refl.advance

/-- If any token is taken, the next one is the first of them. -/
theorem eq_or_advance (h : s.LeadsTo t) : t = s ∨ s.advance.LeadsTo t := by
  induction h with
  | refl => exact .inl rfl
  | advance _ ih =>
    rcases ih with rfl | ih
    · exact .inr .refl
    · exact .inr ih.advance

/-- The first of the tokens ahead is taken. -/
theorem cons {token : Token} (h : token.kind ≠ .endOfFile) (ts : List Token) (prevEnd : Nat) :
    LeadsTo ⟨token :: ts, prevEnd⟩ ⟨ts, token.span.stop⟩ := by
  rw [← advance_cons h ts prevEnd]
  exact step _

theorem eat (s : Stream) (kind : TokenKind) : s.LeadsTo (s.eat kind) := by
  rw [Stream.eat]
  split
  · exact step s
  · exact refl

/-- Wherever tokens lead from a stream in a source, there is a stream in it. -/
theorem «in» (h : s.LeadsTo t) (hs : s.In source) : t.In source := by
  induction h with
  | refl => exact hs
  | advance _ ih => exact ih.advance

/-- Taking tokens goes forward in the source. -/
theorem prevEnd_le (h : s.LeadsTo t) (hs : s.In source) : s.prevEnd ≤ t.prevEnd := by
  induction h with
  | refl => exact Nat.le_refl _
  | @advance t h ih =>
    have ht := h.in hs
    by_cases hk : t.kind = .endOfFile
    · rwa [advance_of_endOfFile hk]
    · rw [prevEnd_advance hk]
      exact Nat.le_trans ih (Nat.le_trans ht.prevEnd_le_start ht.span_fits.le)

/-- Behind the next token, the source before its start is passed. -/
theorem start_le_prevEnd (h : s.advance.LeadsTo t) (hs : s.In source) (hk : s.kind ≠ .endOfFile) :
    s.start ≤ t.prevEnd := by
  have hle := h.prevEnd_le hs.advance
  rw [prevEnd_advance hk] at hle
  exact Nat.le_trans hs.span_fits.le hle

end LeadsTo

/-! ### What parsers give -/

/-- A parser behind one that succeeds. -/
theorem ok_bind {ε α β : Type} (a : α) (f : α → Except ε β) : (Except.ok a >>= f) = f a := rfl

/-- What a parser that starts at a stream gives: a result at a stream that tokens lead to, or a
fault whose span fits the source, or, if `panics` holds, a base entry that runs backwards. -/
def Yields (source : List Char) (s : Stream) (panics : Prop) {α : Type} (rest : α → Stream) :
    Except ParseError α → Prop
  | .ok a => s.LeadsTo (rest a)
  | .error (.rejected _ span) => span.Fits source
  | .error (.backwardEntry _) => panics

namespace Yields

variable {source : List Char} {s t : Stream} {panics : Prop} {α β : Type} {rest : α → Stream}
  {rest' : β → Stream}

theorem unexpected (hs : s.In source) (expected : Expectation) :
    Yields source t panics rest (.error (s.unexpected expected)) :=
  hs.span_fits

/-- What a parser yields from a later place it yields from an earlier one. -/
theorem of_leadsTo {x : Except ParseError α} (hst : s.LeadsTo t)
    (h : Yields source t panics rest x) : Yields source s panics rest x := by
  match x, h with
  | .ok a, h => exact hst.trans h
  | .error (.rejected fault span), h => exact h
  | .error (.backwardEntry span), h => exact h

theorem imp {panics' : Prop} {x : Except ParseError α} (hp : panics → panics')
    (h : Yields source s panics rest x) : Yields source s panics' rest x := by
  match x, h with
  | .ok a, h => exact h
  | .error (.rejected fault span), h => exact h
  | .error (.backwardEntry span), h => exact hp h

theorem leadsTo {x : Except ParseError α} (h : Yields source s panics rest x) {a : α}
    (hx : x = .ok a) : s.LeadsTo (rest a) := by
  rw [hx] at h
  exact h

/-- An error is passed on as it is. -/
theorem error {e : ParseError} (h : Yields source s panics rest (.error e)) :
    Yields source t panics rest' (.error e) := by
  match e, h with
  | .rejected fault span, h => exact h
  | .backwardEntry span, h => exact h

/-- Two parsers in a row. -/
theorem bind {x : Except ParseError α} {f : α → Except ParseError β}
    (hx : Yields source s panics rest x)
    (hf : ∀ a, x = .ok a → s.LeadsTo (rest a) → Yields source (rest a) panics rest' (f a)) :
    Yields source s panics rest' (x >>= f) := by
  cases x with
  | error e => exact hx.error
  | ok a => exact (hf a rfl hx).of_leadsTo hx

/-- A parser keeps its outcome under a function that leads no further back. -/
theorem map {x : Except ParseError α} {f : α → β} (hx : Yields source s panics rest x)
    (hf : ∀ a, x = .ok a → (rest a).LeadsTo (rest' (f a))) :
    Yields source s panics rest' (f <$> x) := by
  cases x with
  | error e => exact hx.error
  | ok a => exact LeadsTo.trans hx (hf a rfl)

end Yields

/-! ### Groups -/

section Groups

variable {source : List Char} {groups : List OpenGroup} {t : Token}

/-- The groups that are open were opened in the source. -/
def OpenedIn (source : List Char) (groups : List OpenGroup) : Prop :=
  ∀ group ∈ groups, group.opened.Fits source

/-- The span of the innermost group, or another one if no group is open. -/
theorem OpenedIn.fits_innermost (hg : OpenedIn source groups) {span : Span}
    (hspan : span.Fits source) : ((groups.head?.map (·.opened)).getD span).Fits source := by
  cases groups with
  | nil => exact hspan
  | cons group outer => exact hg group List.mem_cons_self

/-- **One token more**: it is not the end of the file and the open groups are groups of the source,
or it is a fault in the source. -/
theorem groupsAfter_spec (hg : OpenedIn source groups) (ht : t.span.Fits source) :
    match groupsAfter groups t with
    | .ok next => t.kind ≠ .endOfFile ∧ OpenedIn source next
    | .error (.rejected _ span) => span.Fits source
    | .error (.backwardEntry _) => False := by
  fun_cases groupsAfter groups t with
  | case1 _ _ hcloser =>
    refine ⟨fun hk ↦ ?_, List.forall_mem_cons.2 ⟨ht, hg⟩⟩
    rw [hk] at hcloser
    cases hcloser
  | case2 => exact ht
  | case3 _ hcloser group outer _ =>
    refine ⟨fun hk ↦ ?_, (List.forall_mem_cons.1 hg).2⟩
    rw [hk] at hcloser
    cases hcloser
  | case4 => exact ht
  | case5 => exact hg.fits_innermost ht
  | case6 _ _ _ hk => exact ⟨hk, hg⟩

/-- Skipping groups ends behind the last or is refused at an opening of the source. -/
theorem yields_skipGroups (hg : OpenedIn source groups) {prevEnd : Nat} {ts : List Token}
    (hs : Stream.In source ⟨ts, prevEnd⟩) :
    Yields source ⟨ts, prevEnd⟩ False id (skipGroups groups prevEnd ts) := by
  fun_induction skipGroups groups prevEnd ts with
  | case1 => cases hs.ahead
  | case2 groups prevEnd t ts e he =>
    have hspec := groupsAfter_spec hg hs.span_fits
    rw [he] at hspec
    cases e with
    | rejected fault span => exact hspec
    | backwardEntry span => cases hspec
  | case3 groups prevEnd t ts he =>
    have hspec := groupsAfter_spec hg hs.span_fits
    rw [he] at hspec
    exact .cons hspec.1 ts prevEnd
  | case4 groups prevEnd t ts group outer he ih =>
    have hspec := groupsAfter_spec hg hs.span_fits
    rw [he] at hspec
    have hstep := LeadsTo.cons hspec.1 ts prevEnd
    exact (ih hspec.2 (hstep.in hs)).of_leadsTo hstep

theorem yields_skipGroup {s : Stream} (hs : s.In source) :
    Yields source s False id s.skipGroup :=
  yields_skipGroups (List.forall_mem_nil _) hs

/-- A group that is skipped leads forward. -/
theorem leadsTo_skipGroup {s next : Stream} (hs : s.In source) (h : s.skipGroup = .ok next) :
    s.LeadsTo next :=
  (yields_skipGroup hs).leadsTo h

/-- A group is not empty. -/
theorem advance_leadsTo_skipGroup {s next : Stream} (hs : s.In source)
    (h : s.skipGroup = .ok next) : s.advance.LeadsTo next := by
  rcases (leadsTo_skipGroup hs h).eq_or_advance with rfl | hleads
  · exact absurd (size_skipGroup_lt h) (Nat.lt_irrefl _)
  · exact hleads

end Groups

/-! ### Names -/

section Names

variable {source : List Char}

theorem yields_identifiers {prevEnd : Nat} {ts : List Token}
    (hs : Stream.In source ⟨ts, prevEnd⟩) :
    Yields source ⟨ts, prevEnd⟩ False (·.rest) (identifiers prevEnd ts) := by
  fun_induction identifiers prevEnd ts with
  | case1 prevEnd name span dotSpan ts ih =>
    have hname : LeadsTo ⟨⟨.identifier name, span⟩ :: ⟨.dot, dotSpan⟩ :: ts, prevEnd⟩
        ⟨⟨.dot, dotSpan⟩ :: ts, span.stop⟩ := .step _
    have hdot : LeadsTo ⟨⟨.dot, dotSpan⟩ :: ts, span.stop⟩ ⟨ts, dotSpan.stop⟩ := .step _
    have hleads := hname.trans hdot
    refine ((ih (hleads.in hs)).bind fun names _ _ ↦ ?_).of_leadsTo hleads
    exact LeadsTo.refl
  | case2 => exact LeadsTo.step _
  | case3 => exact .unexpected hs _

theorem yields_dottedName {s : Stream} (hs : s.In source) :
    Yields source s False (·.rest) s.dottedName := by
  rw [dottedName]
  exact (yields_identifiers hs).bind fun _ _ _ ↦ LeadsTo.refl

theorem leadsTo_readName (st : NameState) (prevEnd : Nat) (ts : List Token) :
    LeadsTo ⟨ts, prevEnd⟩ (readName st prevEnd ts).rest := by
  fun_induction readName st prevEnd ts with
  | case1 => exact .refl
  | case2 st prevEnd t ts st' hnext ih =>
    refine (LeadsTo.cons (fun hk ↦ ?_) ts prevEnd).trans ih
    rw [hk] at hnext
    cases hnext
  | case3 => exact .refl

/-- A name that is complete has taken a token. -/
theorem leadsTo_readName_of_isComplete {s : Stream}
    (h : (readName ⟨0, true⟩ s.prevEnd s.ahead).value.isComplete) :
    s.kind ≠ .endOfFile ∧ s.advance.LeadsTo (readName ⟨0, true⟩ s.prevEnd s.ahead).rest := by
  obtain ⟨_ | ⟨t, ts⟩, prevEnd⟩ := s
  · cases h
  · simp only [readName] at h ⊢
    split at h
    next st hnext =>
      have hk : t.kind ≠ .endOfFile := by
        intro hk
        rw [hk] at hnext
        cases hnext
      rw [advance_cons hk]
      exact ⟨hk, leadsTo_readName st t.span.stop ts⟩
    next => cases h

/-- **A type name is a slice of the source**, and tokens lead behind it. -/
theorem typeName?_spec {s : Stream} {name : Parsed String} (hs : s.In source)
    (h : s.typeName? source = some name) :
    s.LeadsTo name.rest ∧ Span.Fits source ⟨s.start, name.rest.prevEnd⟩ := by
  simp only [typeName?] at h
  split at h
  next hcomplete =>
    cases h
    obtain ⟨hk, hleads⟩ := leadsTo_readName_of_isComplete hcomplete
    refine ⟨(LeadsTo.step s).trans hleads, hleads.start_le_prevEnd hs hk, hs.span_fits.start, ?_⟩
    exact (((LeadsTo.step s).trans hleads).in hs).prevEnd
  next => cases h

end Names

end Stream

end DoubleDispatch
