import DoubleDispatch.Proofs.Parsing.Head
import DoubleDispatch.Proofs.Parsing.PairedHeader

/-!
# Declarations side by side

What the parsers behind the keyword of a type do in two sources with tokens of the same kinds. They
do the same, but for base entries: one that opens with a parenthesis runs backwards if there is a
gap before it, and gaps are not compared, unless the pairing is ordered. So what a parser gives on
the other side is a result that is alike, or such an entry (`Pairing.Gives`).
-/

namespace DoubleDispatch

namespace Pairing

variable {P : Pairing} {s s' t : Stream}

/-! ### What is given on the other side -/

/-- A parser on the other side gives a result with a property, or, unless the pairing is ordered, a
base entry that runs backwards. -/
def Gives (P : Pairing) {α : Type} (R : α → Prop) (x : Except ParseError α) : Prop :=
  (∃ a, x = .ok a ∧ R a) ∨ (¬P.IsOrdered ∧ ∃ span, x = .error (.backwardEntry span))

namespace Gives

variable {α β : Type} {R : α → Prop} {R' : β → Prop} {x : Except ParseError α}

theorem ok {a : α} (h : R a) : P.Gives R (.ok a) := .inl ⟨a, rfl, h⟩

/-- What is given in sequence on the other side has the properties of both parts. -/
theorem bind {f : α → Except ParseError β} (h : P.Gives R x) (hf : ∀ a, R a → P.Gives R' (f a)) :
    P.Gives R' (x >>= f) := by
  obtain ⟨a, rfl, ha⟩ | ⟨hordered, span, rfl⟩ := h
  · exact hf a ha
  · exact .inr ⟨hordered, span, rfl⟩

/-- What has a property has any weaker one. -/
theorem imp (h : P.Gives R x) {R' : α → Prop} (hR : ∀ a, R a → R' a) : P.Gives R' x := by
  obtain ⟨a, rfl, ha⟩ | herror := h
  · exact .ok (hR a ha)
  · exact .inr herror

/-- If the pairing is ordered, there is a result. -/
theorem exists_eq_ok (h : P.Gives R x) (hordered : P.IsOrdered) : ∃ a, x = .ok a ∧ R a :=
  h.resolve_right fun ⟨hnot, _⟩ ↦ hnot hordered

end Gives

namespace Beside

/-! ### Type parameters -/

/-- Type parameters are read on both sides, by induction on the list. -/
theorem typeParameters {last : Option String} (h : P.Beside s s') {names : Parsed (List String)}
    (hnames : Stream.typeParameters last s = .ok names) (hrest : P.UpTo names.rest) :
    ∃ names', Stream.typeParameters last s' = .ok names' ∧ names'.value = names.value ∧
      P.Level names.rest names'.rest := by
  have hsuffix {last : Option String} {s : Stream} {names : Parsed (List String)}
      (hnames : Stream.typeParameters last s = .ok names) (hrest : P.UpTo names.rest) : P.UpTo s :=
    hrest.of_suffix (Stream.passes_typeParameters hnames).suffix
  fun_induction Stream.typeParameters last s generalizing s' names with
  | case1 => cases hnames
  | case2 last s hend _ name hname ih =>
    have hs := (hsuffix hnames hrest).before hend
    obtain ⟨names', hnames', hrests⟩ := ih (h.advance hs) hnames hrest
    refine ⟨names', ?_, hrests⟩
    rw [Stream.typeParameters_identifier ((h.kind_eq hs).trans hname), hnames']
  | case3 => cases hnames
  | case4 last s _ _ hbracket next hnext _ ih =>
    have hupTo := hsuffix hnames hrest
    have hopener : s.kind.closer?.isSome := by rw [hbracket]; rfl
    have hs := hupTo.before_group hopener hnext
    obtain ⟨next', hnext', hlevel⟩ := h.skipGroup hopener hnext hupTo
    obtain ⟨names', hnames', hrests⟩ := ih hlevel.beside hnames hrest
    refine ⟨names', ?_, hrests⟩
    rw [Stream.typeParameters_openBracket ((h.kind_eq hs).trans hbracket) hnext', hnames']
  | case5 => cases hnames
  | case6 => cases hnames
  | case7 s hend _ hcomma name later hlater ih =>
    cases hnames
    have hs := (hsuffix hlater hrest).before hend
    obtain ⟨later', hlater', hvalue, hlevel⟩ := ih (h.advance hs) hlater hrest
    exact ⟨_, Stream.typeParameters_comma ((h.kind_eq hs).trans hcomma) hlater',
      congrArg (name :: ·) hvalue, hlevel⟩
  | case8 => cases hnames
  | case9 s hend _ hgreater name =>
    cases hnames
    have hs := hrest.before hend
    exact ⟨_, Stream.typeParameters_greater ((h.kind_eq hs).trans hgreater), rfl,
      h.level_advance hs hend⟩
  | case10 => cases hnames

end Beside

namespace Level

/-- The list of type parameters is read on both sides. -/
theorem typeParameterList (h : P.Level s s') {names : Parsed (List String)}
    (hnames : s.typeParameterList = .ok names) (hrest : P.Before names.rest) :
    ∃ names', s'.typeParameterList = .ok names' ∧ names'.value = names.value ∧
      P.Level names.rest names'.rest := by
  have hs := hrest.of_suffix (Stream.passes_typeParameterList hnames).suffix
  rw [Stream.typeParameterList] at hnames ⊢
  rw [h.beside.kind_eq hs]
  split at hnames
  next hless =>
    rw [if_pos hless]
    exact (h.beside.advance hs).typeParameters hnames hrest.upTo
  next hless =>
    cases hnames
    rw [if_neg hless]
    exact ⟨_, rfl, rfl, h⟩

/-- The parameters of a type are skipped on both sides. -/
theorem skipParameters (h : P.Level s s') (hnext : s.skipParameters = .ok t) (ht : P.Before t) :
    ∃ t', s'.skipParameters = .ok t' ∧ P.Level t t' := by
  have hs := ht.of_suffix (Stream.passes_skipParameters hnext).suffix
  rw [Stream.skipParameters] at hnext ⊢
  rw [h.beside.kind_eq hs]
  split at hnext
  next hparen =>
    rw [if_pos hparen]
    exact h.beside.skipGroup (by rw [hparen]; rfl) hnext ht.upTo
  next hparen =>
    cases hnext
    rw [if_neg hparen]
    exact ⟨_, rfl, h⟩

end Level

/-! ### Base lists -/

/-- Entries that have been read equally far. -/
structure StateMeets (P : Pairing) (st st' : Stream.EntryState) : Prop where
  textEnd : Option.Rel P.Meet st.textEnd st'.textEnd
  angles : st'.angles = st.angles
  started : st'.started = st.started

/-- A base entry ends at a token on both sides or on none. -/
theorem StateMeets.endsAt_eq {st st' : Stream.EntryState} (h : StateMeets P st st')
    (kind : TokenKind) : st'.endsAt kind = st.endsAt kind := by
  rw [Stream.EntryState.endsAt, Stream.EntryState.endsAt, h.angles, h.started]

/-- One part of an entry more. -/
theorem StateMeets.goOn {st st' : Stream.EntryState} (h : StateMeets P st st')
    {textEnd textEnd' : Option Nat} (htext : Option.Rel P.Meet textEnd textEnd')
    (f : Nat → Nat) :
    StateMeets P ⟨textEnd, f st.angles, true⟩ ⟨textEnd', f st'.angles, true⟩ :=
  ⟨htext, congrArg f h.angles, rfl⟩

/-- The arguments of a base constructor end the text on both sides. -/
theorem StateMeets.arguments {st st' : Stream.EntryState} (h : StateMeets P st st')
    {prevEnd prevEnd' : Nat} (hmeet : P.Meet prevEnd prevEnd') :
    Option.Rel P.Meet (if st.angles = 0 then st.textEnd <|> some prevEnd else st.textEnd)
      (if st'.angles = 0 then st'.textEnd <|> some prevEnd' else st'.textEnd) := by
  obtain ⟨textEnd, angles, started⟩ := st
  obtain ⟨textEnd', angles', started'⟩ := st'
  obtain rfl : angles' = angles := h.angles
  have htext : Option.Rel P.Meet textEnd textEnd' := h.textEnd
  split
  · cases htext with
    | none => exact .some hmeet
    | some hmeet => exact .some hmeet
  · exact htext

namespace Level

/-- A base entry is read to its end on both sides. -/
theorem readEntry {st st' : Stream.EntryState} (h : P.Level s s') (hst : StateMeets P st st')
    {entry : Parsed Stream.EntryState} (hentry : Stream.readEntry st s = .ok entry)
    (hrest : P.Before entry.rest) :
    ∃ entry', Stream.readEntry st' s' = .ok entry' ∧ StateMeets P entry.value entry'.value ∧
      P.Level entry.rest entry'.rest := by
  have hbefore {st : Stream.EntryState} {s : Stream} {entry : Parsed Stream.EntryState}
      (hentry : Stream.readEntry st s = .ok entry) (hrest : P.Before entry.rest) : P.Before s := by
    obtain ⟨_, hpasses⟩ := Stream.exists_passes_readEntry hentry
    exact hrest.of_suffix hpasses.suffix
  have hs := hbefore hentry hrest
  fun_induction Stream.readEntry st s generalizing s' st' entry with
  | case1 st s hend =>
    cases hentry
    have hend' := (h.beside.kind_eq hs).trans hend
    exact ⟨_, by rw [Stream.readEntry, dif_pos hend'], hst, h⟩
  | case2 st s hend _ hless ih =>
    obtain ⟨entry', hentry', hrests⟩ := ih (h.beside.level_advance hs hend)
      (hst.goOn hst.textEnd (· + 1)) hentry hrest (hbefore hentry hrest)
    exact ⟨entry', (Stream.readEntry_less ((h.beside.kind_eq hs).trans hless)).trans hentry',
      hrests⟩
  | case3 st s hend _ hgreater ih =>
    obtain ⟨entry', hentry', hrests⟩ := ih (h.beside.level_advance hs hend)
      (hst.goOn hst.textEnd (· - 1)) hentry hrest (hbefore hentry hrest)
    exact ⟨entry', (Stream.readEntry_greater ((h.beside.kind_eq hs).trans hgreater)).trans hentry',
      hrests⟩
  | case4 => cases hentry
  | case5 st s _ _ hparen next hnext =>
    rename_i ih
    have hbehind := hbefore hentry hrest
    obtain ⟨next', hnext', hlevel⟩ := h.beside.skipGroup (by rw [hparen]; rfl) hnext hbehind.upTo
    obtain ⟨entry', hentry', hrests⟩ :=
      ih hlevel (hst.goOn (hst.arguments h.prevEnd) id) hentry hrest hbehind
    have hparen' := (h.beside.kind_eq hs).trans hparen
    exact ⟨entry', (Stream.readEntry_openParen_eq hparen' hnext').trans hentry', hrests⟩
  | case6 => cases hentry
  | case7 st s _ _ hbracket next hnext _ ih =>
    have hbehind := hbefore hentry hrest
    obtain ⟨next', hnext', hlevel⟩ := h.beside.skipGroup (by rw [hbracket]; rfl) hnext hbehind.upTo
    obtain ⟨entry', hentry', hrests⟩ := ih hlevel (hst.goOn hst.textEnd id) hentry hrest hbehind
    have hbracket' := (h.beside.kind_eq hs).trans hbracket
    exact ⟨entry', (Stream.readEntry_openBracket hbracket' hnext').trans hentry', hrests⟩
  | case8 st s hend _ hless hgreater hparen hbracket hends =>
    cases hentry
    have hkind := h.beside.kind_eq hs
    refine ⟨⟨st', s'⟩, Stream.readEntry_end ?_ ?_, hst, h⟩
    · rw [hkind]
      exact ⟨hend, hless, hgreater, hparen, hbracket⟩
    · rw [hkind, hst.endsAt_eq, hends]
  | case9 st s hend _ hless hgreater hparen hbracket hends ih =>
    have hkind := h.beside.kind_eq hs
    obtain ⟨entry', hentry', hrests⟩ := ih (h.beside.level_advance hs hend)
      (hst.goOn hst.textEnd id) hentry hrest (hbefore hentry hrest)
    refine ⟨entry', (Stream.readEntry_part ?_ ?_).trans hentry', hrests⟩
    · rw [hkind]
      exact ⟨hend, hless, hgreater, hparen, hbracket⟩
    · rw [hkind, hst.endsAt_eq]
      simpa using hends

/-- Two offsets belong together if each stands for the end of an entry. -/
theorem meet_getD {textEnd textEnd' : Option Nat} (h : Option.Rel P.Meet textEnd textEnd')
    {n n' : Nat} (hmeet : P.Meet n n') : P.Meet (textEnd.getD n) (textEnd'.getD n') := by
  cases h with
  | none => exact hmeet
  | some hmeet => exact hmeet

/-- A base entry is given on both sides, or runs backwards on the other one. -/
theorem baseEntry (h : P.Level s s') {base : Parsed BaseEntry}
    (hbase : Stream.baseEntry P.left s = .ok base) (hrest : P.Before base.rest) :
    P.Gives (fun base' ↦ BaseEntry.Like P.likeness base.value base'.value ∧
      P.Level base.rest base'.rest) (Stream.baseEntry P.right s') := by
  obtain ⟨entry, hentry, hbase⟩ := exists_of_bind_eq_ok hbase
  simp only [Stream.cutEntry] at hbase
  split at hbase
  · cases hbase
  next hstarted =>
    split at hbase
    · cases hbase
    next hforward =>
      cases hbase
      have hend : s.kind ≠ .endOfFile := by
        intro hend
        rw [Stream.readEntry, dif_pos hend] at hentry
        cases hentry
        exact hstarted rfl
      obtain ⟨_, hpasses⟩ := Stream.exists_passes_readEntry hentry
      have hstart := h.beside.meet_start (hrest.of_suffix hpasses.suffix) hend
      obtain ⟨entry', hentry', hvalue, hlevel⟩ := h.readEntry ⟨.none, rfl, rfl⟩ hentry hrest
      have hstop := meet_getD hvalue.textEnd hlevel.prevEnd
      rw [Stream.baseEntry, hentry', Stream.ok_bind]
      simp only [Stream.cutEntry]
      rw [hvalue.started, if_neg hstarted]
      split
      next hbackward =>
        exact .inr ⟨fun hordered ↦ hforward ((P.lt_iff hordered hstop hstart).1 hbackward), _, rfl⟩
      next =>
        refine .ok ⟨⟨fun hexact ↦ ?_, hstart, hstop⟩, hlevel⟩
        exact congrArg (fun text ↦ String.ofList (Text.trim text))
          (P.slice_eq hexact hstart hstop)

/-- **Base entries are given on both sides**, or one of them runs backwards on the other. -/
theorem baseEntries (h : P.Level s s') {bases : Parsed (List BaseEntry)}
    (hbases : Stream.baseEntries P.left s = .ok bases) (hrest : P.Before bases.rest) :
    P.Gives (fun bases' ↦ List.Forall₂ (BaseEntry.Like P.likeness) bases.value bases'.value ∧
      P.Level bases.rest bases'.rest) (Stream.baseEntries P.right s') := by
  induction hn : s.size using Nat.strongRecOn generalizing s s' bases with
  | ind n ih =>
    subst hn
    rw [Stream.baseEntries_eq] at hbases ⊢
    obtain ⟨base, hbase, hbases⟩ := exists_of_bind_eq_ok hbases
    split at hbases
    next hcomma =>
      obtain ⟨later, hlater, hbases⟩ := exists_of_bind_eq_ok hbases
      cases hbases
      have hend : base.rest.kind ≠ .endOfFile := by rw [hcomma]; nofun
      obtain ⟨_, hpasses⟩ := Stream.exists_passes_baseEntries hlater
      have hbaseRest := (hrest.of_suffix hpasses.suffix).upTo.before hend
      have hlt : base.rest.advance.size < s.size :=
        Nat.lt_of_lt_of_le (Stream.size_advance_lt hend) (Stream.size_baseEntry_le hbase)
      refine (h.baseEntry hbase hbaseRest).bind fun base' ⟨hmatches, hlevel⟩ ↦ ?_
      rw [if_pos ((hlevel.beside.kind_eq hbaseRest).trans hcomma)]
      refine (ih _ hlt (hlevel.beside.level_advance hbaseRest hend) hlater hrest rfl).bind
        fun later' ⟨hlaters, hlevel'⟩ ↦ ?_
      exact .ok ⟨.cons hmatches hlaters, hlevel'⟩
    next hcomma =>
      cases hbases
      refine (h.baseEntry hbase hrest).bind fun base' ⟨hmatches, hlevel⟩ ↦ ?_
      rw [if_neg (by rwa [hlevel.beside.kind_eq hrest])]
      exact .ok ⟨.cons hmatches .nil, hlevel⟩

/-- A base list is given on both sides, or one of its entries runs backwards on the other. -/
theorem baseList (h : P.Level s s') {bases : Parsed (List BaseEntry)}
    (hbases : s.baseList P.left = .ok bases) (hrest : P.Before bases.rest) :
    P.Gives (fun bases' ↦ List.Forall₂ (BaseEntry.Like P.likeness) bases.value bases'.value ∧
      P.Beside bases.rest bases'.rest) (s'.baseList P.right) := by
  obtain ⟨_, hclause⟩ := Stream.exists_passesClause_baseList hbases
  have hs := hrest.of_suffix hclause.passes.suffix
  rw [Stream.baseList] at hbases ⊢
  rw [h.beside.kind_eq hs]
  split at hbases
  next hcolon =>
    rw [if_pos hcolon]
    have hend : s.kind ≠ .endOfFile := by rw [hcolon]; decide
    exact ((h.beside.level_advance hs hend).baseEntries hbases hrest).imp
      fun _ hread ↦ hread.imp_right Level.beside
  next hcolon =>
    cases hbases
    rw [if_neg hcolon]
    exact .ok ⟨.nil, h.beside⟩

end Level

/-! ### Constraints and bodies -/

namespace Beside

/-- Constraint clauses are skipped on both sides, by induction on them. -/
theorem skipConstraints (h : P.Beside s s') (hnext : s.skipConstraints = .ok t)
    (ht : P.Before t) : ∃ t', s'.skipConstraints = .ok t' ∧ P.Beside t t' := by
  have hbefore {s : Stream} (hnext : s.skipConstraints = .ok t) : P.Before s := by
    obtain ⟨_, hpasses⟩ := Stream.exists_passes_skipConstraints hnext
    exact ht.of_suffix hpasses.suffix
  have hs := hbefore hnext
  have hkind := h.kind_eq hs
  fun_induction Stream.skipConstraints s generalizing s' with
  | case1 s hend =>
    cases hnext
    exact ⟨s', Stream.skipConstraints_stop (.inl (hkind.trans hend)), h⟩
  | case2 s _ _ hbrace =>
    cases hnext
    exact ⟨s', Stream.skipConstraints_stop (.inr (.inl (hkind.trans hbrace))), h⟩
  | case3 s _ _ hsemicolon =>
    cases hnext
    exact ⟨s', Stream.skipConstraints_stop (.inr (.inr (hkind.trans hsemicolon))), h⟩
  | case4 => cases hnext
  | case5 s _ _ hparen next hskip _ ih =>
    have hbehind := hbefore hnext
    obtain ⟨next', hskip', hlevel⟩ := h.skipGroup (by rw [hparen]; rfl) hskip hbehind.upTo
    obtain ⟨t', ht', hbeside⟩ := ih hlevel.beside hnext hbehind (hlevel.beside.kind_eq hbehind)
    exact ⟨t', (Stream.skipConstraints_group (.inl (hkind.trans hparen)) hskip').trans ht',
      hbeside⟩
  | case6 => cases hnext
  | case7 s _ _ hbracket next hskip _ ih =>
    have hbehind := hbefore hnext
    obtain ⟨next', hskip', hlevel⟩ := h.skipGroup (by rw [hbracket]; rfl) hskip hbehind.upTo
    obtain ⟨t', ht', hbeside⟩ := ih hlevel.beside hnext hbehind (hlevel.beside.kind_eq hbehind)
    exact ⟨t', (Stream.skipConstraints_group (.inr (hkind.trans hbracket)) hskip').trans ht',
      hbeside⟩
  | case8 s hend _ hbrace hsemicolon hparen hbracket ih =>
    have hbehind := hbefore hnext
    have hadvance := h.advance hs
    obtain ⟨t', ht', hbeside⟩ := ih hadvance hnext hbehind (hadvance.kind_eq hbehind)
    refine ⟨t', (Stream.skipConstraints_part ?_).trans ht', hbeside⟩
    rw [hkind]
    exact ⟨hend, hbrace, hsemicolon, hparen, hbracket⟩

/-- Constraint clauses, if there are any, are skipped on both sides. -/
theorem constraints (h : P.Beside s s') (hnext : s.constraints = .ok t) (ht : P.Before t) :
    ∃ t', s'.constraints = .ok t' ∧ P.Beside t t' := by
  obtain ⟨_, hclause⟩ := Stream.exists_passesClause_constraints hnext
  have hs := ht.of_suffix hclause.passes.suffix
  rw [Stream.constraints] at hnext ⊢
  rw [h.kind_eq hs]
  split at hnext
  next hwhere =>
    rw [if_pos hwhere]
    exact (h.advance hs).skipConstraints hnext ht
  next hwhere =>
    cases hnext
    rw [if_neg hwhere]
    exact ⟨_, rfl, h⟩

end Beside

/-- The right tail does not start with a semicolon, which would belong to what is read before. -/
def IsClear (P : Pairing) : Prop := Stream.kind ⟨P.rightTail, 0⟩ ≠ .semicolon

/-- What is read up to a stream does not go on in the tail: the tail has not been reached there, or
it is clear. -/
def Clears (P : Pairing) (s : Stream) : Prop := P.Before s ∨ P.UpTo s ∧ P.IsClear

theorem Before.clears (h : P.Before s) : P.Clears s := .inl h

/-- A tail that is clear has not been passed. -/
theorem Clears.upTo (h : P.Clears s) : P.UpTo s := h.elim Before.upTo And.left

theorem Clears.of_suffix (h : P.Clears t) (hst : t.ahead <:+ s.ahead) : P.Clears s :=
  h.imp (·.of_suffix hst) (And.imp_left (·.of_suffix hst))

section Semicolons

variable (hs : P.Clears (s.eat .semicolon))
include hs

/-- A semicolon follows on both sides or on none. -/
theorem Beside.kind_eq_semicolon_iff (h : P.Beside s s') :
    s'.kind = .semicolon ↔ s.kind = .semicolon := by
  have hsuffix := (Stream.passes_eat s .semicolon (by decide)).suffix
  refine ⟨fun hkind' ↦ ?_, fun hkind ↦ ?_⟩
  · rcases hs with hbefore | ⟨-, hclear⟩
    · rwa [h.kind_eq (hbefore.of_suffix hsuffix)] at hkind'
    · obtain ⟨front, front', hfront, hfront', hmeets⟩ := h
      cases hmeets with
      | nil =>
        rw [Stream.kind, hfront'] at hkind'
        exact absurd hkind' hclear
      | @cons x x' front front' hmeet =>
        have hx : s.kind = x.kind := by rw [Stream.kind, hfront]; rfl
        have hx' : s'.kind = x'.kind := by rw [Stream.kind, hfront']; rfl
        rwa [hx, ← hmeet.kind, ← hx']
  · rw [Stream.eat, if_pos hkind] at hs
    exact (h.kind_eq (hs.upTo.before (by rw [hkind]; decide))).trans hkind

/-- A semicolon is taken from both streams or from neither. -/
theorem Beside.eat_semicolon_cases (h : P.Beside s s') :
    (P.Before s ∧ s.eat .semicolon = s.advance ∧ s'.eat .semicolon = s'.advance) ∨
      (s.eat .semicolon = s ∧ s'.eat .semicolon = s') := by
  have hiff := h.kind_eq_semicolon_iff hs
  rw [Stream.eat] at hs
  rw [Stream.eat, Stream.eat]
  by_cases hkind : s.kind = .semicolon
  · rw [if_pos hkind] at hs
    exact .inl ⟨hs.upTo.before (by rw [hkind]; decide), if_pos hkind, if_pos (hiff.2 hkind)⟩
  · exact .inr ⟨if_neg hkind, if_neg (mt hiff.1 hkind)⟩

/-- A semicolon is taken on both sides or on none. -/
theorem Beside.eat_semicolon (h : P.Beside s s') :
    P.Beside (s.eat .semicolon) (s'.eat .semicolon) := by
  obtain ⟨hbefore, heat, heat'⟩ | ⟨heat, heat'⟩ := h.eat_semicolon_cases hs
  · rw [heat, heat']
    exact h.advance hbefore
  · rwa [heat, heat']

theorem Level.eat_semicolon (h : P.Level s s') :
    P.Level (s.eat .semicolon) (s'.eat .semicolon) := by
  obtain ⟨hbefore, heat, heat'⟩ | ⟨heat, heat'⟩ := h.beside.eat_semicolon_cases hs
  · rw [heat, heat']
    exact h.advance hbefore
  · rwa [heat, heat']

end Semicolons

namespace Beside

/-- A body that ends before the tail starts before it. -/
theorem before_typeBody {name : String} (hnext : s.typeBody name = .ok t) (ht : P.UpTo t) :
    P.Before s := by
  obtain ⟨body, hahead, -, -, front, last, rfl, -⟩ := Stream.exists_passage_of_typeBody hnext
  exact ht.before_append (by simp) hahead

/-- A body is skipped on both sides, whatever the types are called. -/
theorem typeBody (h : P.Beside s s') {name : String} (hnext : s.typeBody name = .ok t)
    (ht : P.Clears t) (name' : String) :
    ∃ t', s'.typeBody name' = .ok t' ∧ P.Level t t' := by
  have hs := before_typeBody hnext ht.upTo
  have hkind := h.kind_eq hs
  rcases Stream.typeBody_eq_ok_iff.1 hnext with ⟨hbrace, behind, hskip, rfl⟩ | ⟨hsemicolon, rfl⟩
  · have hbehind := ht.upTo.of_suffix (Stream.passes_eat behind .semicolon (by decide)).suffix
    obtain ⟨behind', hskip', hlevel⟩ := h.skipGroup (by rw [hbrace]; rfl) hskip hbehind
    exact ⟨_, Stream.typeBody_eq_ok_iff.2 (.inl ⟨hkind.trans hbrace, behind', hskip', rfl⟩),
      hlevel.eat_semicolon ht⟩
  · exact ⟨_, Stream.typeBody_eq_ok_iff.2 (.inr ⟨hkind.trans hsemicolon, rfl⟩),
      h.level_advance hs (by rw [hsemicolon]; decide)⟩

end Beside

/-! ### Declarations -/

/-- Headers that are alike. -/
structure HeadsAlike (P : Pairing) (head head' : Stream.Head) : Prop where
  start : P.StartsAlike head.start head'.start
  name : head'.name = head.name
  typeParameters : head'.typeParameters = head.typeParameters
  bases : List.Forall₂ (BaseEntry.Like P.likeness) head.bases head'.bases
  nameSpan : P.likeness.span head.nameSpan head'.nameSpan

/-- Declarations are alike if their headers are and their spans belong together. -/
theorem HeadsAlike.declaration {head head' : Stream.Head} (h : P.HeadsAlike head head')
    (ordinal : Nat) {span span' : Span} (hspan : P.likeness.span span span') :
    TypeDeclaration.Like P.likeness (head.declaration ordinal span)
      (head'.declaration ordinal span') where
  ordinal := rfl
  kind := h.start.kind
  name := h.name
  typeParameters := h.typeParameters
  modifiers := h.start.modifiers
  sections := h.start.sections
  bases := h.bases
  nameSpan := h.nameSpan
  span := hspan

/-- Declarations with headers that are alike match, wherever they end. -/
theorem HeadsAlike.matches {head head' : Stream.Head} (h : P.HeadsAlike head head')
    (ordinal : Nat) (span span' : Span) :
    TypeDeclaration.Matches P.names (head.declaration ordinal span)
      (head'.declaration ordinal span') where
  ordinal := rfl
  kind := h.start.kind
  name := h.name
  typeParameters := h.typeParameters
  modifiers := h.start.modifiers
  sections := h.start.sections.imp fun _ _ hs ↦ hs.matches
  bases := h.bases.imp fun _ _ hb ↦ hb.text

/-- **What stands behind the name of a type** is read on both sides, whatever the names are. -/
theorem Level.head_of_name {start : Stream.HeaderStart} (h : P.Level s.advance s'.advance)
    {head : Parsed Stream.Head} (hhead : s.head P.left start = .ok head) {name' : String}
    (hname' : s'.kind.name? = some name') (start' : Stream.HeaderStart)
    (hrest : P.Before head.rest) :
    P.Gives (fun head' ↦ (∃ bases',
        head'.value = ⟨start', name', head.value.typeParameters, bases', s'.span⟩ ∧
          List.Forall₂ (BaseEntry.Like P.likeness) head.value.bases bases') ∧
        P.Beside head.rest head'.rest) (s'.head P.right start') := by
  obtain ⟨name, parameters, mark, bases, behind, -, hparameters, hmark, hbases, hbehind, rfl⟩ :=
    Stream.head_eq_ok_iff.1 hhead
  -- From the body back to the name, the tail has not been reached.
  obtain ⟨_, hclause⟩ := Stream.exists_passesClause_constraints hbehind
  have hbasesRest := hrest.of_suffix hclause.passes.suffix
  obtain ⟨_, hbaseClause⟩ := Stream.exists_passesClause_baseList hbases
  have hmarkRest := hbasesRest.of_suffix hbaseClause.passes.suffix
  have hparametersRest := hmarkRest.of_suffix (Stream.passes_skipParameters hmark).suffix
  obtain ⟨parameters', hparameters', hvalue, hlevel⟩ :=
    h.typeParameterList hparameters hparametersRest
  obtain ⟨mark', hmark', hlevel'⟩ := hlevel.skipParameters hmark hmarkRest
  rw [Stream.head, hname']
  dsimp only
  rw [hparameters', Stream.ok_bind, hmark', Stream.ok_bind]
  refine (hlevel'.baseList hbases hbasesRest).bind fun bases' hbases' ↦ ?_
  obtain ⟨hlike, hbeside⟩ := hbases'
  obtain ⟨behind', hbehind', hbeside'⟩ := hbeside.constraints hbehind hrest
  rw [hbehind', Stream.ok_bind]
  exact .ok ⟨⟨bases'.value, by rw [hvalue], hlike⟩, hbeside'⟩

namespace Beside

variable {start start' : Stream.HeaderStart}

/-- **A header is read on both sides.** -/
theorem head (h : P.Beside s s') (hstart : P.StartsAlike start start') {head : Parsed Stream.Head}
    (hhead : s.head P.left start = .ok head) (hrest : P.Before head.rest) :
    P.Gives (fun head' ↦ P.HeadsAlike head.value head'.value ∧ P.Beside head.rest head'.rest)
      (s'.head P.right start') := by
  obtain ⟨name, parameters, mark, bases, behind, hname, hparameters, hmark, hbases, hbehind, rfl⟩ :=
    Stream.head_eq_ok_iff.1 hhead
  have hend := Stream.kind_ne_endOfFile_of_name? hname
  have hs : P.Before s := by
    obtain ⟨_, hpasses⟩ := Stream.exists_passes_head hhead
    exact hrest.of_suffix hpasses.suffix
  refine ((h.level_advance hs hend).head_of_name hhead ((h.kind_eq hs).symm ▸ hname) start'
    hrest).imp fun head' hhead' ↦ ?_
  obtain ⟨⟨bases', hvalue, hlike⟩, hbeside⟩ := hhead'
  refine ⟨?_, hbeside⟩
  rw [hvalue]
  exact ⟨hstart, rfl, rfl, hlike, h.meet_span hs hend⟩

/-- What stands behind a keyword is read on both sides. -/
theorem declarator (h : P.Beside s s') (hstart : P.StartsAlike start start') (ordinal : Nat)
    {offset offset' : Nat} (hoffset : P.Meet offset offset') {d : Parsed TypeDeclaration}
    (hd : Stream.declarator P.left ordinal offset start s = .ok d) (hrest : P.Clears d.rest) :
    P.Gives (fun d' ↦ TypeDeclaration.Like P.likeness d.value d'.value ∧ P.Level d.rest d'.rest)
      (Stream.declarator P.right ordinal offset' start' s') := by
  rw [Stream.declarator_eq] at hd ⊢
  obtain ⟨head, hhead, hd⟩ := exists_of_bind_eq_ok hd
  obtain ⟨last, hlast, hd⟩ := exists_of_bind_eq_ok hd
  cases hd
  refine (h.head hstart hhead (before_typeBody hlast hrest.upTo)).bind fun head' hhead' ↦ ?_
  obtain ⟨hheads, hmark⟩ := hhead'
  obtain ⟨last', hlast', hlasts⟩ := hmark.typeBody hlast hrest head'.value.name
  rw [hlast', Stream.ok_bind]
  exact .ok ⟨hheads.declaration ordinal ⟨hoffset, hlasts.prevEnd⟩, hlasts⟩

/-- **A declaration is read on both sides.** -/
theorem typeDeclaration? (h : P.Beside s s') {ordinal : Nat} {d : Parsed TypeDeclaration}
    (hd : s.typeDeclaration? P.left ordinal = .ok (some d)) (hrest : P.Clears d.rest) :
    P.Gives (fun d? ↦ ∃ d', d? = some d' ∧ TypeDeclaration.Like P.likeness d.value d'.value ∧
      P.Level d.rest d'.rest) (s'.typeDeclaration? P.right ordinal) := by
  obtain ⟨header, hheader, hd⟩ := Stream.exists_headerStart?_of_typeDeclaration? hd
  obtain ⟨taken, strays, hahead, -, ⟨front, last, rfl, -⟩, -⟩ :=
    Stream.exists_passage_of_declarator hd
  have hheaderRest := hrest.upTo.before_append (by simp) hahead
  have hpasses := Stream.passes_headerStart? hheader
  have hoffset := h.meet_start (hheaderRest.of_suffix hpasses.suffix)
    (hpasses.kind_ne_endOfFile (Stream.size_headerStart?_lt hheader))
  obtain ⟨header', hheader', hstart, hbeside⟩ := h.headerStart? hheader hheaderRest
  rw [Stream.typeDeclaration?, hheader']
  exact (hbeside.declarator hstart ordinal hoffset hd hrest).bind
    fun d' hd' ↦ .ok ⟨d', rfl, hd'⟩

end Beside

end Pairing

end DoubleDispatch
