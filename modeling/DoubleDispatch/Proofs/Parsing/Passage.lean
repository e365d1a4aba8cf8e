import DoubleDispatch.Parsing.Body
import DoubleDispatch.Proofs.Parsing.Stream
import DoubleDispatch.Proofs.Token.Balance

/-!
# What parsers pass over

Between two bodies a parser goes on token by token or group by group (`Passage`). A group is passed
over as a whole, so its delimiters are balanced; a closing delimiter that is met by itself is a
stray, and so is an opening brace that is not taken for the start of a group. `Stream.Passes` says
what lies between two streams, once for each parser. Only base lists and constraint clauses meet
strays.
-/

namespace DoubleDispatch

theorem eq_ok_of_toOption {ε α : Type} {x : Except ε α} {a : α} (h : x.toOption = some a) :
    x = .ok a := by
  cases x with
  | error e => cases h
  | ok b => exact congrArg _ (Option.some.inj h)

/-- Tokens that a parser passed over one by one or group by group, with the strays among them. -/
inductive Passage : List Token → List Token → Prop
  | nil : Passage [] []
  | plain {strays later : List Token} {t : Token} (plain : t.kind.IsPlain)
      (h : Passage strays later) :
    Passage strays (t :: later)
  | stray {strays later : List Token} {t : Token} (stray : t.kind.IsStray)
      (h : Passage strays later) :
    Passage (t :: strays) (t :: later)
  | group {strays group later : List Token} (hgroup : IsGroup group)
      (h : Passage strays later) :
    Passage strays (group ++ later)

namespace Passage

variable {strays strays' tokens later : List Token}

/-- Passages go on into each other. -/
theorem append (h : Passage strays tokens) (hlater : Passage strays' later) :
    Passage (strays ++ strays') (tokens ++ later) := by
  induction h with
  | nil => exact hlater
  | plain hplain _ ih => exact .plain hplain ih
  | stray hstray _ ih => exact .stray hstray ih
  | group hgroup _ ih =>
    rw [List.append_assoc]
    exact .group hgroup ih

/-- What is passed over is balanced but for the strays. -/
theorem balancedBut (h : Passage strays tokens) : BalancedBut strays tokens := by
  induction h with
  | nil => exact .nil
  | plain hplain _ ih => exact .plain hplain ih
  | stray hstray _ ih => exact .stray hstray ih
  | group hgroup _ ih => exact (Balanced.balancedBut hgroup.balanced).append ih

/-- Without strays, what is passed over is balanced. -/
theorem balanced (h : Passage [] tokens) : Balanced (kindsOf tokens) := h.balancedBut.balanced

/-- What is passed over from the first of some groups in brackets on, with words behind them, ends
with a bracket or a word. -/
theorem exists_last {groups : List (List Token)} {words inside : List Token}
    (h : Passage strays inside) (hgroups : ∀ group ∈ groups, IsGroupIn .openBracket group)
    (hwords : ∀ word ∈ words, word.kind.isIdentifier = true) (hinside : inside ≠ [])
    (heq : inside ++ later = groups.flatten ++ words) :
    ∃ front last, inside = front ++ [last] ∧
      (last.kind = .closeBracket ∨ last.kind.isIdentifier = true) := by
  induction groups generalizing strays inside with
  | nil =>
    obtain ⟨front, last, rfl⟩ := List.eq_nil_or_concat inside |>.resolve_left hinside
    rw [List.concat_eq_append] at heq ⊢
    refine ⟨front, last, rfl, .inr (hwords last ?_)⟩
    have hall : words = front ++ [last] ++ later := heq.symm
    rw [hall]
    simp
  | cons first groups ih =>
    obtain ⟨hfirst, hothers⟩ := List.forall_mem_cons.1 hgroups
    rw [List.flatten_cons, List.append_assoc] at heq
    -- The opening bracket starts a group, and only one group starts there.
    have hopener {t : Token} {rest : List Token}
        (heq : t :: rest = first ++ (groups.flatten ++ words)) : t.kind = .openBracket := by
      obtain ⟨opener, inner, rfl, hkind⟩ := hfirst.starts
      rw [(List.cons.inj heq).1, hkind]
    cases h with
    | nil => exact absurd rfl hinside
    | plain hplain =>
      rw [hopener heq] at hplain
      exact absurd hplain (by decide)
    | stray hstray =>
      rw [hopener heq] at hstray
      rcases hstray with hstray | hstray <;> cases hstray
    | @group _ group rest hgroup hrest =>
      rw [List.append_assoc] at heq
      obtain ⟨rfl, hlater⟩ := hgroup.append_inj hfirst.isGroup heq
      by_cases hnone : rest = []
      · obtain ⟨front, last, hlast, hkind⟩ := hfirst.exists_last rfl
        exact ⟨front, last, by rw [hnone, List.append_nil, hlast], .inl hkind⟩
      · obtain ⟨front, last, rfl, hkind⟩ := ih hrest hothers hnone hlater
        exact ⟨group ++ front, last, by rw [List.append_assoc], hkind⟩

end Passage

/-- A token with which an item of a body ends: a semicolon or a brace. -/
def TokenKind.IsStop (kind : TokenKind) : Prop :=
  kind = .semicolon ∨ kind = .openBrace ∨ kind = .closeBrace

/-- Tokens that end like an item of a body. -/
def EndsItem (tokens : List Token) : Prop :=
  ∃ front last, tokens = front ++ [last] ∧ last.kind.IsStop

theorem EndsItem.ne_nil {tokens : List Token} (h : EndsItem tokens) : tokens ≠ [] := by
  obtain ⟨front, last, rfl, -⟩ := h
  exact List.append_ne_nil_of_right_ne_nil front (List.cons_ne_nil last [])

/-- What ends like an item still does with more before it. -/
theorem EndsItem.behind {tokens : List Token} (h : EndsItem tokens) (front : List Token) :
    EndsItem (front ++ tokens) := by
  obtain ⟨inner, last, rfl, hlast⟩ := h
  exact ⟨front ++ inner, last, (List.append_assoc _ _ _).symm, hlast⟩

/-- The end of the last of some tokens, or an offset if there are none. -/
def stopBehind (prevEnd : Nat) : List Token → Nat
  | [] => prevEnd
  | t :: ts => stopBehind t.span.stop ts

/-- The last token ends where it does whatever stands before it. -/
theorem stopBehind_append (prevEnd : Nat) (ts us : List Token) :
    stopBehind prevEnd (ts ++ us) = stopBehind (stopBehind prevEnd ts) us := by
  induction ts generalizing prevEnd with
  | nil => rfl
  | cons t ts ih => exact ih t.span.stop

/-- A kind of token that is passed over by itself and ends no item. -/
structure TokenKind.IsInner (kind : TokenKind) : Prop where
  plain : kind.IsPlain
  inside : kind ≠ .semicolon

/-- No item ends with a token inside of it. -/
theorem TokenKind.IsInner.not_isStop {kind : TokenKind} (h : kind.IsInner) : ¬kind.IsStop := by
  rintro (rfl | rfl | rfl)
  · exact h.inside rfl
  · cases h.plain.noOpener
  · cases h.plain.noCloser

namespace Stream

/-- Tokens that a parser passed over lie between two streams. -/
def Passes (s t : Stream) (strays : List Token) : Prop :=
  ∃ taken, s.ahead = taken ++ t.ahead ∧ Passage strays taken

namespace Passes

variable {s t u : Stream} {strays strays' : List Token}

theorem refl (s : Stream) : s.Passes s [] := ⟨[], rfl, .nil⟩

/-- What is passed over on the way to a stream and from there on is passed over together. -/
theorem trans (hst : s.Passes t strays) (htu : t.Passes u strays') :
    s.Passes u (strays ++ strays') := by
  obtain ⟨front, hfront, hpassage⟩ := hst
  obtain ⟨back, hback, hpassage'⟩ := htu
  exact ⟨front ++ back, by rw [hfront, hback, List.append_assoc], hpassage.append hpassage'⟩

/-- Further tokens without strays are passed over. -/
theorem and_then (hst : s.Passes t strays) (htu : t.Passes u []) : s.Passes u strays := by
  simpa using hst.trans htu

/-- What is ahead later is the end of what is ahead. -/
theorem suffix (h : s.Passes t strays) : t.ahead <:+ s.ahead := by
  obtain ⟨taken, hahead, -⟩ := h
  exact ⟨taken, hahead.symm⟩

end Passes

/-- Before the end of the file a token is ahead. -/
theorem exists_ahead_eq {s : Stream} (h : s.kind ≠ .endOfFile) :
    ∃ t, s.ahead = t :: s.advance.ahead ∧ t.kind = s.kind ∧ t.span = s.span := by
  obtain ⟨_ | ⟨t, ts⟩, prevEnd⟩ := s
  · exact absurd rfl h
  · rw [advance_cons h]
    exact ⟨t, rfl, rfl, rfl⟩

theorem ahead_ne_of_size_lt {s t : Stream} (h : t.size < s.size) : t.ahead ≠ s.ahead := fun he ↦
  absurd h (by rw [size, size, he]; exact Nat.lt_irrefl _)

theorem ahead_ne_of_kind_ne {s t : Stream} (h : t.kind ≠ s.kind) : t.ahead ≠ s.ahead := fun he ↦
  absurd (by rw [kind, kind, he]) h

/-- If anything was passed over, the end of the file had not been reached. -/
theorem Passes.kind_ne_endOfFile {s t : Stream} {strays : List Token} (h : s.Passes t strays)
    (hlt : t.size < s.size) : s.kind ≠ .endOfFile := by
  obtain ⟨_ | ⟨x, taken⟩, hahead, hpassage⟩ := h
  · exact absurd hahead.symm (ahead_ne_of_size_lt hlt)
  · rw [kind, hahead]
    exact hpassage.balancedBut.inside x List.mem_cons_self

/-- If anything was passed over, then the next token was. -/
theorem Passes.suffix_advance {s t : Stream} {strays : List Token} (h : s.Passes t strays)
    (hne : t.ahead ≠ s.ahead) : t.ahead <:+ s.advance.ahead := by
  obtain ⟨_ | ⟨x, taken⟩, hahead, hpassage⟩ := h
  · exact absurd hahead.symm hne
  · have hx : x.kind ≠ .endOfFile := hpassage.balancedBut.inside x List.mem_cons_self
    obtain ⟨ahead, prevEnd⟩ := s
    obtain rfl : ahead = x :: (taken ++ t.ahead) := hahead
    rw [advance_cons hx]
    exact List.suffix_append _ _

/-- Tokens of some kinds lie between two streams. -/
def Takes (p : TokenKind → Prop) (s t : Stream) : Prop :=
  ∃ taken, s.ahead = taken ++ t.ahead ∧ ∀ x ∈ taken, p x.kind

namespace Takes

variable {p : TokenKind → Prop} {s t u : Stream}

theorem refl (s : Stream) : Takes p s s := ⟨[], rfl, by simp⟩

/-- Tokens of a kind are taken up to a stream and from there on. -/
theorem trans (hst : Takes p s t) (htu : Takes p t u) : Takes p s u := by
  obtain ⟨front, hfront, hfrontKinds⟩ := hst
  obtain ⟨back, hback, hbackKinds⟩ := htu
  exact ⟨front ++ back, by rw [hfront, hback, List.append_assoc],
    List.forall_mem_append.2 ⟨hfrontKinds, hbackKinds⟩⟩

theorem suffix (h : Takes p s t) : t.ahead <:+ s.ahead := by
  obtain ⟨taken, hahead, -⟩ := h
  exact ⟨taken, hahead.symm⟩

/-- Tokens that are taken one by one are passed over without strays. -/
theorem passes (h : Takes p s t) (hp : ∀ kind, p kind → kind.IsPlain) : s.Passes t [] := by
  obtain ⟨taken, hahead, htaken⟩ := h
  refine ⟨taken, hahead, ?_⟩
  clear hahead
  induction taken with
  | nil => exact .nil
  | cons x taken ih =>
    obtain ⟨hx, htaken⟩ := List.forall_mem_cons.1 htaken
    exact .plain (hp _ hx) (ih htaken)

end Takes

section Steps

variable {s : Stream}

/-- Taking one token takes tokens of its kind. -/
theorem takes_advance {p : TokenKind → Prop} (hend : s.kind ≠ .endOfFile) (h : p s.kind) :
    Takes p s s.advance := by
  obtain ⟨t, hahead, hkind, -⟩ := exists_ahead_eq hend
  exact ⟨[t], hahead, by simpa [hkind] using h⟩

/-- A plain token is passed over by itself. -/
theorem passes_plain (h : s.kind.IsPlain) : s.Passes s.advance [] := by
  obtain ⟨t, hahead, hkind, -⟩ := exists_ahead_eq h.inside
  exact ⟨[t], hahead, .plain (hkind ▸ h) .nil⟩

/-- The next token is taken, if it is of a kind that is no delimiter. -/
theorem passes_advance {kind : TokenKind} (h : s.kind = kind)
    (hkind : kind.IsPlain) : s.Passes s.advance [] :=
  passes_plain (h ▸ hkind)

/-- Only an identifier has a name. -/
theorem eq_identifier_of_name? {kind : TokenKind} {name : String} (h : kind.name? = some name) :
    kind = .identifier name := by
  cases kind with
  | identifier => exact congrArg _ (Option.some.inj h)
  | _ => cases h

/-- An identifier opens and closes nothing. -/
theorem isPlain_of_name? {kind : TokenKind} {name : String} (h : kind.name? = some name) :
    kind.IsPlain := by
  rw [eq_identifier_of_name? h]
  exact ⟨rfl, rfl, nofun⟩

theorem isPlain_of_isIdentifier {kind : TokenKind} (h : kind.isIdentifier = true) :
    kind.IsPlain := by
  obtain ⟨name, hname⟩ := Option.isSome_iff_exists.1 h
  exact isPlain_of_name? hname

/-- Words are passed over one by one. -/
theorem passage_of_isIdentifier {words : List Token}
    (h : ∀ word ∈ words, word.kind.isIdentifier = true) : Passage [] words := by
  induction words with
  | nil => exact .nil
  | cons word words ih =>
    obtain ⟨hword, hwords⟩ := List.forall_mem_cons.1 h
    exact .plain (isPlain_of_isIdentifier hword) (ih hwords)

/-- A word opens and closes nothing. -/
theorem isPlain_of_isWord {kind : TokenKind} {word : String} (h : kind.isWord word = true) :
    kind.IsPlain := by
  obtain rfl : kind = .identifier word := by simpa [TokenKind.isWord] using h
  exact ⟨rfl, rfl, nofun⟩

/-- A plain token is passed over if it is ahead. -/
theorem passes_eat (s : Stream) (kind : TokenKind) (hkind : kind.IsPlain) :
    s.Passes (s.eat kind) [] := by
  rw [Stream.eat]
  split
  next h => exact passes_plain (h ▸ hkind)
  next => exact .refl s

end Steps

/-! ### Groups -/

/-- An opening delimiter opens a group in the others. -/
theorem groupsAfter_opener {groups : List OpenGroup} {t : Token} {closer : TokenKind}
    (h : t.kind.closer? = some closer) :
    groupsAfter groups t = .ok (⟨closer, t.span⟩ :: groups) := by
  simp only [groupsAfter, h]

/-- The closing delimiter of the innermost group closes it. -/
theorem groupsAfter_closer {opener closer : TokenKind} {outer : List OpenGroup} {opened : Span}
    {t : Token} (h : opener.closer? = some closer) (ht : t.kind = closer) :
    groupsAfter (⟨closer, opened⟩ :: outer) t = .ok outer := by
  obtain ⟨hnone, hcloser⟩ := TokenKind.closer?_closer h
  simp [groupsAfter, ht, hnone, hcloser]

/-- Balanced tokens leave the groups open that are. It does not matter where they end, since there
is a token behind them. -/
theorem skipGroups_balanced {kinds : List TokenKind} (h : Balanced kinds) {tokens : List Token}
    (hkinds : tokens.map (·.kind) = kinds) (group : OpenGroup) (outer : List OpenGroup)
    (prevEnd : Nat) (t : Token) (ts : List Token) :
    skipGroups (group :: outer) prevEnd (tokens ++ t :: ts) =
      skipGroups (group :: outer) 0 (t :: ts) := by
  induction h generalizing tokens group outer prevEnd t ts with
  | nil =>
    obtain rfl := List.map_eq_nil_iff.1 hkinds
    rfl
  | cons noOpener noCloser inside _ ih =>
    obtain ⟨first, later, rfl, rfl, hlater⟩ := List.map_eq_cons_iff.1 hkinds
    have hafter : groupsAfter (group :: outer) first = .ok (group :: outer) := by
      simp [groupsAfter, noOpener, noCloser, inside]
    rw [List.cons_append, skipGroups, hafter]
    exact ih hlater group outer _ t ts
  | group closes _ _ ihcontent ihlater =>
    obtain ⟨content, later, rfl, hcontent, hlater⟩ := List.map_eq_append_iff.1 hkinds
    obtain ⟨first, inner, rfl, rfl, hinner⟩ := List.map_eq_cons_iff.1 hcontent
    obtain ⟨last, behind, rfl, rfl, hbehind⟩ := List.map_eq_cons_iff.1 hlater
    rw [List.append_assoc, List.cons_append, skipGroups, groupsAfter_opener closes]
    dsimp only
    rw [List.cons_append, ihcontent hinner, skipGroups, groupsAfter_closer closes rfl]
    exact ihlater hbehind group outer _ t ts

/-- **A group is skipped as a whole.** -/
theorem skipGroup_of_isGroup {group : List Token} (h : IsGroup group) (ts : List Token)
    (prevEnd : Nat) : skipGroup ⟨group ++ ts, prevEnd⟩ = .ok ⟨ts, stopBehind prevEnd group⟩ := by
  obtain @⟨opener, closer, content, closes, hcontent⟩ := h
  rw [stopBehind_append]
  rw [skipGroup, List.append_assoc, List.cons_append, skipGroups, groupsAfter_opener closes]
  dsimp only
  rw [List.singleton_append, skipGroups_balanced hcontent rfl, skipGroups,
    groupsAfter_closer closes rfl]
  rfl

/-- One token more leaves open what it leaves to be called for. -/
theorem pending?_of_groupsAfter {groups next : List OpenGroup} {t : Token}
    (h : groupsAfter groups t = .ok next) :
    t.kind.pending? (groups.map (·.closer)) = some (next.map (·.closer)) := by
  unfold groupsAfter at h
  split at h
  next closer hcloser =>
    obtain rfl := Except.ok.inj h
    exact TokenKind.pending?_opener hcloser
  next hnone =>
    split at h
    next hcloser =>
      split at h
      · cases h
      · split at h
        next heq =>
          obtain rfl := Except.ok.inj h
          simp [TokenKind.pending?, hnone, hcloser, heq]
        · cases h
    next hcloser =>
      split at h
      · cases h
      next hinside =>
        obtain rfl := Except.ok.inj h
        exact TokenKind.pending?_plain ⟨hnone, by simpa using hcloser, hinside⟩

/-- Groups are skipped to where the last delimiter that is pending is closed. -/
theorem pendingAfter_of_skipGroups {groups : List OpenGroup} {prevEnd : Nat} {ts : List Token}
    {next : Stream} (h : skipGroups groups prevEnd ts = .ok next) :
    ∃ taken, ts = taken ++ next.ahead ∧
      pendingAfter (groups.map (·.closer)) (kindsOf taken) = some [] := by
  fun_induction skipGroups groups prevEnd ts with
  | case1 => cases h
  | case2 => cases h
  | case3 groups prevEnd t ts hafter =>
    cases h
    refine ⟨[t], rfl, ?_⟩
    rw [kindsOf, List.map_singleton, pendingAfter, pending?_of_groupsAfter hafter]
    rfl
  | case4 groups prevEnd t ts group outer hafter ih =>
    obtain ⟨taken, rfl, htaken⟩ := ih h
    refine ⟨t :: taken, rfl, ?_⟩
    rw [kindsOf, List.map_cons, pendingAfter, pending?_of_groupsAfter hafter]
    exact htaken

/-- Balanced tokens that start with an opening delimiter start with a group. -/
theorem exists_group_of_balanced {t : Token} {later : List Token}
    (hopener : t.kind.closer?.isSome) (h : Balanced (kindsOf (t :: later))) :
    ∃ group rest, t :: later = group ++ rest ∧ IsGroup group := by
  generalize hkinds : kindsOf (t :: later) = kinds at h
  cases h with
  | nil => cases hkinds
  | cons noOpener =>
    obtain ⟨rfl, -⟩ := List.cons.inj hkinds
    rw [noOpener] at hopener
    cases hopener
  | group closes hcontent hlater =>
    obtain ⟨front, back, hall, hfront, hback⟩ := List.map_eq_append_iff.1 hkinds
    obtain ⟨opener, content, rfl, rfl, rfl⟩ := List.map_eq_cons_iff.1 hfront
    obtain ⟨closer, behind, rfl, rfl, rfl⟩ := List.map_eq_cons_iff.1 hback
    exact ⟨opener :: content ++ [closer], behind, by simp [hall], ⟨closes, hcontent⟩⟩

/-- **What is skipped is a group.** -/
theorem exists_group_of_skipGroup {s next : Stream} (hopener : s.kind.closer?.isSome)
    (h : s.skipGroup = .ok next) :
    ∃ group, s.ahead = group ++ next.ahead ∧ IsGroupIn s.kind group := by
  obtain ⟨ahead, prevEnd⟩ := s
  obtain ⟨taken, rfl, htaken⟩ := pendingAfter_of_skipGroups h
  obtain ⟨t, later, rfl⟩ : ∃ t later, taken = t :: later := by
    rcases taken with - | ⟨t, later⟩
    · exact absurd (size_skipGroup_lt h) (Nat.lt_irrefl _)
    · exact ⟨t, later, rfl⟩
  -- The tokens are balanced, so they start with a group, and behind that the skipping stops.
  obtain ⟨group, rest, hall, hgroup⟩ :=
    exists_group_of_balanced hopener ((balanced_iff _).2 htaken)
  rw [hall, List.append_assoc, skipGroup_of_isGroup hgroup (rest ++ next.ahead) prevEnd] at h
  have hrest : rest ++ next.ahead = next.ahead := congrArg Stream.ahead (Except.ok.inj h)
  refine ⟨group, by rw [hall, List.append_assoc, hrest], hgroup, ?_⟩
  obtain ⟨first, more, rfl⟩ := List.exists_cons_of_ne_nil hgroup.ne_nil
  obtain ⟨rfl, -⟩ := List.cons.inj hall
  exact ⟨t, more, rfl, rfl⟩

/-- **A group is passed over as a whole.** -/
theorem passes_skipGroup {s next : Stream} (hopener : s.kind.closer?.isSome)
    (h : s.skipGroup = .ok next) : s.Passes next [] := by
  obtain ⟨group, hahead, hgroup⟩ := exists_group_of_skipGroup hopener h
  exact ⟨group, hahead, by simpa using Passage.group hgroup.isGroup .nil⟩

/-! ### Names and attributes -/

/-- A token of a name ends no item. -/
theorem isInner_of_next? {st st' : NameState} {kind : TokenKind}
    (h : st.next? kind = some st') : kind.IsInner := by
  cases kind with
  | literal => cases h
  | openBrace => cases h
  | closeBrace => cases h
  | openParen => cases h
  | closeParen => cases h
  | openBracket => cases h
  | closeBracket => cases h
  | semicolon => cases h
  | endOfFile => cases h
  | _ => exact ⟨⟨rfl, rfl, nofun⟩, nofun⟩

/-- Reading a name takes tokens that end no item. -/
theorem takes_readName (st : NameState) (prevEnd : Nat) (ts : List Token) :
    Takes TokenKind.IsInner ⟨ts, prevEnd⟩ (readName st prevEnd ts).rest := by
  fun_induction readName st prevEnd ts with
  | case1 => exact .refl _
  | case2 st prevEnd t ts st' hnext ih =>
    have hone : Takes TokenKind.IsInner ⟨t :: ts, prevEnd⟩ ⟨ts, t.span.stop⟩ :=
      ⟨[t], rfl, by simpa using isInner_of_next? hnext⟩
    exact hone.trans ih
  | case3 => exact .refl _

/-- A type name takes tokens that end no item. -/
theorem takes_typeName? {source : List Char} {s : Stream} {name : Parsed String}
    (h : s.typeName? source = some name) : Takes TokenKind.IsInner s name.rest := by
  simp only [typeName?] at h
  split at h
  · cases h
    exact takes_readName _ _ _
  · cases h

section Attributes

variable {source : List Char} {s : Stream}

theorem passes_typeName? {name : Parsed String} (h : s.typeName? source = some name) :
    s.Passes name.rest [] :=
  (takes_typeName? h).passes fun _ ↦ (·.plain)

/-- The arguments of an attribute are passed over as a group. -/
theorem passes_skipArguments? {next : Stream} (h : s.skipArguments? = some next) :
    s.Passes next [] := by
  rcases skipArguments?_eq_some_iff.1 h with ⟨hparen, hskip⟩ | ⟨-, rfl⟩
  · exact passes_skipGroup (by rw [hparen]; rfl) hskip
  · exact .refl _

/-- An attribute is passed over without strays. -/
theorem passes_attribute? {a : Parsed Attribute} (h : s.attribute? source = some a) :
    s.Passes a.rest [] := by
  obtain ⟨name, next, hname, harguments, rfl⟩ := attribute?_eq_some_iff.1 h
  exact (passes_typeName? hname).and_then (passes_skipArguments? harguments)

/-- Attributes in a row are passed over without strays. -/
theorem passes_attributes? {as : Parsed (List Attribute)} (h : s.attributes? source = some as) :
    s.Passes as.rest [] := by
  fun_induction attributes? source s generalizing as with
  | case1 => cases h; exact .refl _
  | case2 => cases h
  | case3 => cases h
  | case4 s _ first hfirst _ hcomma later hlater ih =>
    have hrest := ih hlater
    cases h
    exact ((passes_attribute? hfirst).and_then (passes_advance hcomma (by decide))).and_then hrest
  | case5 s _ first hfirst => cases h; exact passes_attribute? hfirst

/-- The target of a section is passed over without strays. -/
theorem passes_target (s : Stream) : s.Passes s.target.rest [] := by
  rw [target]
  split
  next name hname hcolon =>
    have hword := isPlain_of_name? hname
    rw [secondKind_eq_kind_advance hword.inside] at hcolon
    exact (passes_plain hword).and_then (passes_advance hcolon (by decide))
  next => exact .refl s

/-- **A section is a group.** -/
theorem exists_group_of_section? {a : Parsed AttributeSection} (hs : s.kind = .openBracket)
    (h : s.section? source = some a) :
    ∃ group, s.ahead = group ++ a.rest.ahead ∧ IsGroupIn .openBracket group := by
  obtain ⟨attributes, -, hattributes, -, hcloser, rfl⟩ := section?_eq_some_iff.1 h
  obtain ⟨content, hcontent, hpassage⟩ :=
    (passes_target s.advance).and_then (passes_attributes? hattributes)
  obtain ⟨opener, hopener, hopen, -⟩ := exists_ahead_eq (s := s) (by rw [hs]; nofun)
  obtain ⟨closer, hcloser', hclose, -⟩ :=
    exists_ahead_eq (s := attributes.rest) (by rw [hcloser]; nofun)
  refine ⟨opener :: content ++ [closer], ?_, .mk ?_ hpassage.balanced, opener,
    content ++ [closer], rfl, hopen.trans hs⟩
  · rw [hopener, hcontent, hcloser']
    simp
  · rw [hopen, hclose, hs, hcloser]
    rfl

/-! ### Lists of attributes and sections -/

/-- Before a comma, an attribute is followed by others. -/
theorem attributes?_cons {first : Parsed Attribute} {later : Parsed (List Attribute)}
    (hkind : s.kind ≠ .closeBracket) (hfirst : s.attribute? source = some first)
    (hcomma : first.rest.kind = .comma)
    (hlater : attributes? source first.rest.advance = some later) :
    attributes? source s = some ⟨first.value :: later.value, later.rest⟩ := by
  rw [attributes?_eq, if_neg hkind, hfirst, Option.bind_eq_bind, Option.bind_some, if_pos hcomma,
    hlater]
  rfl

/-- Without a comma, an attribute is the last one. -/
theorem attributes?_singleton {first : Parsed Attribute}
    (hkind : s.kind ≠ .closeBracket) (hfirst : s.attribute? source = some first)
    (hcomma : first.rest.kind ≠ .comma) :
    attributes? source s = some ⟨[first.value], first.rest⟩ := by
  rw [attributes?_eq, if_neg hkind, hfirst, Option.bind_eq_bind, Option.bind_some, if_neg hcomma]
  rfl

/-- A section that is read is followed by the others. -/
theorem sections?_cons {first : Parsed AttributeSection} {later : Parsed (List AttributeSection)}
    (hkind : s.kind = .openBracket) (hfirst : s.section? source = some first)
    (hlater : sections? source first.rest = some later) :
    sections? source s = some ⟨first.value :: later.value, later.rest⟩ := by
  rw [sections?_eq, if_pos hkind, hfirst, Option.bind_eq_bind, Option.bind_some, hlater]
  rfl

/-- **Sections are groups in a row.** -/
theorem exists_groups_of_sections? {as : Parsed (List AttributeSection)}
    (h : s.sections? source = some as) :
    ∃ groups : List (List Token), s.ahead = groups.flatten ++ as.rest.ahead ∧
      ∀ group ∈ groups, IsGroupIn .openBracket group := by
  fun_induction sections? source s generalizing as with
  | case1 => cases h
  | case2 => cases h
  | case3 s hs first hfirst _ later hlater ih =>
    obtain ⟨groups, hahead, hgroups⟩ := ih hlater
    obtain ⟨group, hfront, hgroup⟩ := exists_group_of_section? hs hfirst
    cases h
    refine ⟨group :: groups, ?_, List.forall_mem_cons.2 ⟨hgroup, hgroups⟩⟩
    rw [hfront, hahead, List.flatten_cons, List.append_assoc]
  | case4 => cases h; exact ⟨[], rfl, by simp⟩

end Attributes

/-! ### Headers -/

section Headers

variable {source : List Char} {s : Stream}

/-- Words lie between two streams. -/
abbrev TakesWords (s t : Stream) : Prop := Takes (·.isIdentifier = true) s t

theorem takesWords_advance {name : String} (h : s.kind.name? = some name) :
    s.TakesWords s.advance := by
  refine takes_advance (kind_ne_endOfFile_of_name? h) ?_
  rw [TokenKind.isIdentifier, h]
  rfl

/-- Modifiers are words. -/
theorem takesWords_readModifiers (prevEnd : Nat) (ts : List Token) :
    TakesWords ⟨ts, prevEnd⟩ (readModifiers prevEnd ts).rest := by
  fun_induction readModifiers prevEnd ts with
  | case1 prevEnd word span ts _ _ ih =>
    have hword : TakesWords ⟨⟨.identifier word, span⟩ :: ts, prevEnd⟩ ⟨ts, span.stop⟩ :=
      takesWords_advance rfl
    exact hword.trans ih
  | case2 => exact .refl _
  | case3 => exact .refl _

/-- A keyword is one word, or two behind `record`. -/
theorem takesWords_typeKeyword? {kind : Parsed TypeKind} (h : s.typeKeyword? = some kind) :
    s.TakesWords kind.rest := by
  obtain ⟨word, -, hword, hrest | ⟨hrest, second, hsecond⟩⟩ := exists_word_of_typeKeyword? h
  · rw [hrest]
    exact takesWords_advance hword
  · rw [secondKind_eq_kind_advance (kind_ne_endOfFile_of_name? hword)] at hsecond
    rw [hrest]
    exact (takesWords_advance hword).trans (takesWords_advance hsecond)

/-- The start of a header is sections and words behind them. -/
theorem exists_sections?_of_headerStart? {header : Parsed HeaderStart}
    (h : s.headerStart? source = some header) :
    ∃ sections, s.sections? source = some sections ∧ header.value.sections = sections.value ∧
      sections.rest.TakesWords header.rest := by
  obtain ⟨sections, kind, hsections, hkind, rfl⟩ := headerStart?_eq_some_iff.1 h
  exact ⟨sections, hsections, rfl,
    (takesWords_readModifiers sections.rest.prevEnd sections.rest.ahead).trans
      (takesWords_typeKeyword? hkind)⟩

/-- **The start of a header** is groups in brackets and words behind them. -/
theorem exists_groups_of_headerStart? {header : Parsed HeaderStart}
    (h : s.headerStart? source = some header) :
    ∃ (groups : List (List Token)) (words : List Token),
      s.ahead = groups.flatten ++ (words ++ header.rest.ahead) ∧
      (∀ group ∈ groups, IsGroupIn .openBracket group) ∧
      ∀ word ∈ words, word.kind.isIdentifier = true := by
  obtain ⟨sections, hsections, -, words, hwords, hareWords⟩ := exists_sections?_of_headerStart? h
  obtain ⟨groups, hahead, hgroups⟩ := exists_groups_of_sections? hsections
  exact ⟨groups, words, by rw [hahead, hwords], hgroups, hareWords⟩

/-- The start of a header opens with a bracket, a modifier or a keyword. -/
theorem kind_of_headerStart? {header : Parsed HeaderStart}
    (h : s.headerStart? source = some header) :
    s.kind = .openBracket ∨ ∃ word, s.kind = .identifier word ∧
      word ∈ modifierWords ++ ["class", "struct", "interface", "enum", "record"] := by
  obtain ⟨sections, kind, hsections, hkind, -⟩ := headerStart?_eq_some_iff.1 h
  by_cases hbracket : s.kind = .openBracket
  · exact .inl hbracket
  rw [sections?, dif_neg hbracket] at hsections
  cases hsections
  right
  -- Without sections, the first token is a modifier or else the keyword.
  have hkeyword (hread : s.typeKeyword? = some kind) : ∃ word, s.kind = .identifier word ∧
      word ∈ modifierWords ++ ["class", "struct", "interface", "enum", "record"] := by
    obtain ⟨word, hmem, hword, -⟩ := exists_word_of_typeKeyword? hread
    exact ⟨word, eq_identifier_of_name? hword, List.mem_append_right _ hmem⟩
  obtain ⟨ahead, prevEnd⟩ := s
  dsimp only at hkind
  unfold readModifiers at hkind
  split at hkind
  next word span ts =>
    split at hkind
    next hmodifier => exact ⟨word, rfl, List.mem_append_left _ (List.contains_iff_mem.1 hmodifier)⟩
    next => exact hkeyword hkind
  next => exact hkeyword hkind

/-- The start of a header is passed over without strays. -/
theorem passes_headerStart? {header : Parsed HeaderStart}
    (h : s.headerStart? source = some header) : s.Passes header.rest [] := by
  obtain ⟨groups, words, hahead, hgroups, hwords⟩ := exists_groups_of_headerStart? h
  have hgroupsPassage : Passage [] groups.flatten := by
    clear hahead
    induction groups with
    | nil => exact .nil
    | cons group groups ih =>
      obtain ⟨hgroup, hgroups⟩ := List.forall_mem_cons.1 hgroups
      exact .group hgroup.isGroup (ih hgroups)
  exact ⟨groups.flatten ++ words, by rw [hahead, List.append_assoc],
    hgroupsPassage.append (passage_of_isIdentifier hwords)⟩

/-- Type parameters are passed over without strays, by induction on the list. -/
theorem passes_typeParameters {last : Option String} {names : Parsed (List String)}
    (h : typeParameters last s = .ok names) : s.Passes names.rest [] := by
  fun_induction typeParameters last s generalizing names with
  | case1 => cases h
  | case2 last s _ _ _ hname ih =>
    exact (passes_plain (isPlain_of_name? (by rw [hname]; rfl))).and_then (ih h)
  | case3 => cases h
  | case4 last s _ _ hbracket next hnext _ ih =>
    exact (passes_skipGroup (by rw [hbracket]; rfl) hnext).and_then (ih h)
  | case5 => cases h
  | case6 => cases h
  | case7 s _ _ hcomma _ later hlater ih =>
    have hrest := ih hlater
    cases h
    exact (passes_advance hcomma (by decide)).and_then hrest
  | case8 => cases h
  | case9 s _ _ hgreater => cases h; exact passes_advance hgreater (by decide)
  | case10 => cases h

theorem passes_typeParameterList {names : Parsed (List String)}
    (h : s.typeParameterList = .ok names) : s.Passes names.rest [] := by
  rw [typeParameterList] at h
  split at h
  next hless => exact (passes_advance hless (by decide)).and_then (passes_typeParameters h)
  next => cases h; exact .refl s

/-- The parameters of a type are passed over as a group. -/
theorem passes_skipParameters {next : Stream} (h : s.skipParameters = .ok next) :
    s.Passes next [] := by
  rw [skipParameters] at h
  split at h
  next hparen => exact passes_skipGroup (by rw [hparen]; rfl) h
  next => cases h; exact .refl s

end Headers

/-! ### Directives, namespaces and other items -/

section Items

variable {source : List Char} {s : Stream}

theorem isInner_of_name? {kind : TokenKind} {name : String} (h : kind.name? = some name) :
    kind.IsInner :=
  ⟨isPlain_of_name? h, by rintro rfl; cases h⟩

/-- A word ends no item. -/
theorem takes_word {word : String} (h : s.kind.isWord word = true) :
    Takes TokenKind.IsInner s s.advance := by
  have hkind : s.kind = .identifier word := by simpa [TokenKind.isWord] using h
  exact takes_advance (by rw [hkind]; nofun) (isInner_of_name? (by rw [hkind]; rfl))

theorem takes_eatWord (s : Stream) (word : String) :
    Takes TokenKind.IsInner s (s.eatWord word) := by
  rw [eatWord, Stream.eat]
  split
  next hkind => exact takes_word (by rw [hkind, TokenKind.isWord, beq_self_eq_true])
  next => exact .refl s

/-- The words before a target end no item. -/
theorem takes_usingKind (isStatic : Bool) (s : Stream) :
    Takes TokenKind.IsInner s (usingKind isStatic s).rest := by
  rw [usingKind]
  split
  next name hname hequals =>
    have hend := kind_ne_endOfFile_of_name? hname
    rw [secondKind_eq_kind_advance hend] at hequals
    exact (takes_advance hend (isInner_of_name? hname)).trans
      (takes_advance (by rw [hequals]; nofun) (hequals ▸ ⟨by decide, nofun⟩))
  next => exact .refl s

/-- A directive ends with a semicolon, its first. -/
theorem exists_takes_usingTarget? {isGlobal : Bool} {start : Nat} {u : Parsed UsingDirective}
    (h : s.usingTarget? source isGlobal start = some u) :
    ∃ mark : Stream, Takes TokenKind.IsInner s mark ∧ mark.kind = .semicolon ∧
      u.rest = mark.advance := by
  obtain ⟨target, htarget, hsemicolon, rfl⟩ := usingTarget?_eq_some_iff.1 h
  have hwords := (takes_eatWord s "static").trans (takes_eatWord _ "unsafe")
  have hkind := hwords.trans (takes_usingKind (s.kind.isWord "static") _)
  exact ⟨target.rest, hkind.trans (takes_typeName? htarget), hsemicolon, rfl⟩

/-- A directive takes tokens that end no item, up to its semicolon. -/
theorem exists_takes_using? {u : Parsed UsingDirective} (h : s.using? source = some u) :
    ∃ mark : Stream, Takes TokenKind.IsInner s mark ∧ mark.kind = .semicolon ∧
      u.rest = mark.advance := by
  rw [using?] at h
  split at h
  next hword =>
    obtain ⟨mark, htakes, hmark⟩ := exists_takes_usingTarget? h
    exact ⟨mark, (takes_word hword).trans htakes, hmark⟩
  next =>
    split at h
    next hwords =>
      obtain ⟨hglobal, husing⟩ : s.kind.isWord "global" = true ∧ _ := by simpa using hwords
      rw [secondKind_eq_kind_advance (isPlain_of_isWord hglobal).inside] at husing
      obtain ⟨mark, htakes, hmark⟩ := exists_takes_usingTarget? h
      exact ⟨mark, ((takes_word hglobal).trans (takes_word husing)).trans htakes, hmark⟩
    next => cases h

theorem exists_passes_using? {u : Parsed UsingDirective} (h : s.using? source = some u) :
    ∃ mark : Stream, s.Passes mark [] ∧ mark.kind = .semicolon ∧ u.rest = mark.advance := by
  obtain ⟨mark, htakes, hmark⟩ := exists_takes_using? h
  exact ⟨mark, htakes.passes fun _ ↦ (·.plain), hmark⟩

/-- **A directive is passed over without strays.** -/
theorem passes_using? {u : Parsed UsingDirective} (h : s.using? source = some u) :
    s.Passes u.rest [] := by
  obtain ⟨mark, hpasses, hkind, hrest⟩ := exists_passes_using? h
  rw [hrest]
  exact hpasses.and_then (passes_advance hkind (by decide))

/-- A dotted name is passed over without strays. -/
theorem passes_identifiers {prevEnd : Nat} {ts : List Token} {names : Parsed (List String)}
    (h : identifiers prevEnd ts = .ok names) : Passes ⟨ts, prevEnd⟩ names.rest [] := by
  fun_induction identifiers prevEnd ts generalizing names with
  | case1 prevEnd name span dotSpan ts ih =>
    obtain ⟨later, hlater, h⟩ := exists_of_bind_eq_ok h
    have hrest := ih hlater
    cases h
    have htwo : Passes ⟨⟨.identifier name, span⟩ :: ⟨.dot, dotSpan⟩ :: ts, prevEnd⟩
        ⟨ts, dotSpan.stop⟩ [] :=
      ⟨[_, _], rfl, .plain ⟨rfl, rfl, by simp⟩ (.plain ⟨rfl, rfl, by simp⟩ .nil)⟩
    exact htwo.and_then hrest
  | case2 => cases h; exact ⟨[_], rfl, .plain ⟨rfl, rfl, by simp⟩ .nil⟩
  | case3 => cases h

/-- The mark behind the name of a namespace is a semicolon or an opening brace. -/
theorem exists_passes_namespaceHeader {header : Parsed (String × Bool)}
    (h : s.namespaceHeader = .ok header) :
    ∃ mark : Stream, s.Passes mark [] ∧ header.rest = mark.advance ∧
      mark.kind = if header.value.2 then .semicolon else .openBrace := by
  obtain ⟨name, _, hname, hkind, rfl⟩ := namespaceHeader_eq_ok_iff.1 h
  obtain ⟨names, hnames, hname⟩ := exists_of_bind_eq_ok hname
  cases hname
  exact ⟨names.rest, passes_identifiers hnames, rfl, hkind⟩

/-- An item that is skipped is one token or one group. -/
theorem exists_taken_of_skipItem (hs : s.kind ≠ .endOfFile) {next : Stream}
    (h : s.skipItem = .ok next) :
    ∃ taken, s.ahead = taken ++ next.ahead ∧
      ((∃ t, taken = [t] ∧ t.kind = s.kind ∧ t.kind.IsPlain) ∨ IsGroupIn s.kind taken) := by
  rw [skipItem] at h
  split at h
  next hopener =>
    obtain ⟨group, hahead, hgroup⟩ := exists_group_of_skipGroup hopener h
    exact ⟨group, hahead, .inr hgroup⟩
  next hopener =>
    split at h
    next => cases h
    next hcloser =>
      cases h
      obtain ⟨t, hahead, hkind, -⟩ := exists_ahead_eq hs
      refine ⟨[t], hahead, .inl ⟨t, rfl, hkind, ?_⟩⟩
      rw [hkind]
      exact ⟨by simpa using hopener, by simpa using hcloser, hs⟩

/-- An item that is skipped is a plain token or a group. -/
theorem passes_skipItem (hs : s.kind ≠ .endOfFile) {next : Stream} (h : s.skipItem = .ok next) :
    s.Passes next [] := by
  obtain ⟨taken, hahead, ⟨t, rfl, -, hplain⟩ | hgroup⟩ := exists_taken_of_skipItem hs h
  · exact ⟨[t], hahead, .plain hplain .nil⟩
  · exact ⟨taken, hahead, by simpa using Passage.group hgroup.isGroup .nil⟩

end Items

end Stream

end DoubleDispatch
