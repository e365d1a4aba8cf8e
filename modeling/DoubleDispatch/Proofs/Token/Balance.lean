import DoubleDispatch.Proofs.Token.Piece

/-!
# Balanced tokens

Whether delimiters are balanced can be decided from left to right: what counts behind some tokens is
which closing delimiters are still called for (`pendingAfter`), and tokens are balanced exactly if
none are at the end (`balanced_iff`). Within balanced tokens nothing is closed that was open before
them (`Balanced.pendingAfter_of_append`). So a group ends at the first token behind which nothing is
called for, and it cannot end within balanced tokens that start inside it (`IsGroup.not_straddles`).

`BalancedBut` allows for strays: delimiters that belong to no group.
-/

namespace DoubleDispatch

/-- A token that is no delimiter, nor the end of the file. -/
structure TokenKind.IsPlain (kind : TokenKind) : Prop where
  noOpener : kind.closer? = none
  noCloser : kind.isCloser = false
  inside : kind ≠ .endOfFile

instance (kind : TokenKind) : Decidable kind.IsPlain :=
  decidable_of_iff (kind.closer? = none ∧ kind.isCloser = false ∧ kind ≠ .endOfFile)
    ⟨fun ⟨h₁, h₂, h₃⟩ ↦ ⟨h₁, h₂, h₃⟩, fun ⟨h₁, h₂, h₃⟩ ↦ ⟨h₁, h₂, h₃⟩⟩

/-! ### Delimiters that are called for -/

/-- The closing delimiters that are called for behind one more token, innermost first. -/
def TokenKind.pending? (pending : List TokenKind) (kind : TokenKind) : Option (List TokenKind) :=
  match kind.closer? with
  | some closer => some (closer :: pending)
  | none =>
    if kind.isCloser then
      match pending with
      | [] => none
      | closer :: outer => if closer = kind then some outer else none
    else if kind = .endOfFile then none
    else some pending

/-- The closing delimiters that are called for behind some tokens. -/
def pendingAfter (pending : List TokenKind) : List TokenKind → Option (List TokenKind)
  | [] => some pending
  | kind :: later => (kind.pending? pending).bind (pendingAfter · later)

section Pending

variable {kind opener closer : TokenKind} {pending kinds : List TokenKind}

/-- A closing bracket opens nothing. -/
theorem TokenKind.closer?_closer (h : opener.closer? = some closer) :
    closer.closer? = none ∧ closer.isCloser = true := by
  cases opener <;> cases h <;> exact ⟨rfl, rfl⟩

theorem TokenKind.pending?_plain (h : kind.IsPlain) : kind.pending? pending = some pending := by
  simp [pending?, h.noOpener, h.noCloser, h.inside]

theorem TokenKind.pending?_opener (h : opener.closer? = some closer) :
    opener.pending? pending = some (closer :: pending) := by
  simp [pending?, h]

theorem TokenKind.pending?_closer (h : opener.closer? = some closer) :
    closer.pending? (closer :: pending) = some pending := by
  obtain ⟨hnone, hcloser⟩ := closer?_closer h
  simp [pending?, hnone, hcloser]

/-- What is pending behind two stretches of kinds is what the second leaves of the first. -/
theorem pendingAfter_append (pending kinds later : List TokenKind) :
    pendingAfter pending (kinds ++ later) =
      (pendingAfter pending kinds).bind (pendingAfter · later) := by
  induction kinds generalizing pending with
  | nil => rfl
  | cons kind kinds ih =>
    rw [List.cons_append, pendingAfter, pendingAfter]
    rcases kind.pending? pending with - | next
    · rfl
    · exact ih next

/-- A balanced stretch leaves pending what was pending before it. -/
theorem Balanced.pendingAfter (h : Balanced kinds) (pending : List TokenKind) :
    pendingAfter pending kinds = some pending := by
  induction h generalizing pending with
  | nil => rfl
  | cons noOpener noCloser inside _ ih =>
    rw [DoubleDispatch.pendingAfter, TokenKind.pending?_plain ⟨noOpener, noCloser, inside⟩]
    exact ih pending
  | @group opener closer content later closes _ _ ihcontent ihlater =>
    rw [pendingAfter_append, DoubleDispatch.pendingAfter, TokenKind.pending?_opener closes,
      Option.bind_some, ihcontent, Option.bind_some, DoubleDispatch.pendingAfter,
      TokenKind.pending?_closer closes]
    exact ihlater pending

/-- Balanced stretches one behind the other are balanced. -/
theorem Balanced.append {kinds later : List TokenKind} (h : Balanced kinds)
    (hlater : Balanced later) : Balanced (kinds ++ later) := by
  induction h with
  | nil => exact hlater
  | cons noOpener noCloser inside _ ih => exact .cons noOpener noCloser inside ih
  | group closes hcontent _ _ ih =>
    rw [List.append_assoc, List.cons_append]
    exact .group closes hcontent ih

/-- Tokens that close what is called for: between the closing delimiters they are balanced. -/
def Closes : List TokenKind → List TokenKind → Prop
  | [], kinds => Balanced kinds
  | closer :: outer, kinds =>
    ∃ content later, kinds = content ++ closer :: later ∧ Balanced content ∧ Closes outer later

/-- A balanced stretch in front of one that closes what is pending changes nothing. -/
theorem Closes.prepend {kinds later : List TokenKind} (h : Balanced kinds)
    (hlater : Closes pending later) : Closes pending (kinds ++ later) := by
  cases pending with
  | nil => exact h.append hlater
  | cons closer outer =>
    obtain ⟨content, behind, rfl, hcontent, hbehind⟩ := hlater
    exact ⟨kinds ++ content, behind, by rw [List.append_assoc], h.append hcontent, hbehind⟩

/-- Kinds that leave nothing pending close all that was. -/
theorem closes_of_pendingAfter (h : pendingAfter pending kinds = some []) :
    Closes pending kinds := by
  induction kinds generalizing pending with
  | nil =>
    obtain rfl : pending = [] := Option.some.inj h
    exact .nil
  | cons kind later ih =>
    obtain ⟨next, hnext, hlater⟩ := Option.bind_eq_some_iff.1 h
    have hcloses := ih hlater
    unfold TokenKind.pending? at hnext
    split at hnext
    next closer hcloser =>
      -- An opening delimiter makes a group with the first of what is closed behind it.
      obtain rfl := Option.some.inj hnext
      obtain ⟨content, behind, rfl, hcontent, hbehind⟩ := hcloses
      have hgroup : Balanced (kind :: content ++ closer :: []) := .group hcloser hcontent .nil
      simpa using hbehind.prepend hgroup
    next hnone =>
      split at hnext
      · split at hnext
        · cases hnext
        · split at hnext
          next heq =>
            obtain rfl := Option.some.inj hnext
            exact ⟨[], later, by rw [heq]; rfl, .nil, hcloses⟩
          · cases hnext
      next hcloser =>
        split at hnext
        · cases hnext
        next hinside =>
          obtain rfl := Option.some.inj hnext
          have hplain : Balanced [kind] := .cons hnone (by simpa using hcloser) hinside .nil
          exact hcloses.prepend hplain

/-- **Balance is decided from left to right.** -/
theorem balanced_iff (kinds : List TokenKind) :
    Balanced kinds ↔ pendingAfter [] kinds = some [] :=
  ⟨fun h ↦ h.pendingAfter [], fun h ↦ closes_of_pendingAfter h⟩

instance (kinds : List TokenKind) : Decidable (Balanced kinds) :=
  decidable_of_iff _ (balanced_iff kinds).symm

/-- Within balanced tokens only what they open themselves is called for, before what was. -/
theorem Balanced.pendingAfter_of_append {kinds later : List TokenKind}
    (h : Balanced (kinds ++ later)) :
    ∃ inner, ∀ pending, DoubleDispatch.pendingAfter pending kinds = some (inner ++ pending) := by
  generalize hall : kinds ++ later = all at h
  induction h generalizing kinds later with
  | nil =>
    obtain ⟨rfl, -⟩ := List.append_eq_nil_iff.1 hall
    exact ⟨[], fun _ ↦ rfl⟩
  | @cons kind behind noOpener noCloser inside _ ih =>
    rcases List.append_eq_cons_iff.1 hall with ⟨rfl, -⟩ | ⟨kinds', rfl, hbehind⟩
    · exact ⟨[], fun _ ↦ rfl⟩
    · obtain ⟨inner, hinner⟩ := ih hbehind.symm
      refine ⟨inner, fun pending ↦ ?_⟩
      rw [DoubleDispatch.pendingAfter, TokenKind.pending?_plain ⟨noOpener, noCloser, inside⟩]
      exact hinner pending
  | @group opener closer content behind closes hcontent _ ihcontent ihbehind =>
    rcases List.append_eq_append_iff.1 hall with ⟨middle, hgroup, -⟩ | ⟨middle, rfl, hmiddle⟩
    · -- The tokens end within the content.
      rcases List.cons_eq_append_iff.1 hgroup with ⟨rfl, -⟩ | ⟨kinds', rfl, hinside⟩
      · exact ⟨[], fun _ ↦ rfl⟩
      · obtain ⟨inner, hinner⟩ := ihcontent hinside.symm
        refine ⟨inner ++ [closer], fun pending ↦ ?_⟩
        rw [DoubleDispatch.pendingAfter, TokenKind.pending?_opener closes, Option.bind_some,
          hinner, List.append_assoc]
        rfl
    · have hopen (pending : List TokenKind) :
          DoubleDispatch.pendingAfter pending (opener :: content) = some (closer :: pending) := by
        rw [DoubleDispatch.pendingAfter, TokenKind.pending?_opener closes]
        exact hcontent.pendingAfter _
      rcases List.append_eq_cons_iff.1 hmiddle.symm with ⟨rfl, -⟩ | ⟨kinds', rfl, hbehind⟩
      · refine ⟨[closer], fun pending ↦ ?_⟩
        rw [List.append_nil]
        exact hopen pending
      · obtain ⟨inner, hinner⟩ := ihbehind hbehind.symm
        refine ⟨inner, fun pending ↦ ?_⟩
        rw [pendingAfter_append, hopen, Option.bind_some, DoubleDispatch.pendingAfter,
          TokenKind.pending?_closer closes]
        exact hinner pending

end Pending

/-! ### Groups -/

/-- The kinds of some tokens. -/
abbrev kindsOf (tokens : List Token) : List TokenKind := tokens.map (·.kind)

/-- Tokens that form a group: balanced ones between an opening delimiter and its closing one. -/
inductive IsGroup : List Token → Prop
  | mk {opener closer : Token} {content : List Token}
      (closes : opener.kind.closer? = some closer.kind) (balanced : Balanced (kindsOf content)) :
    IsGroup (opener :: content ++ [closer])

namespace IsGroup

variable {group rest : List Token}

protected theorem balanced (h : IsGroup group) : Balanced (kindsOf group) := by
  obtain ⟨closes, hcontent⟩ := h
  simpa [kindsOf] using Balanced.group closes hcontent .nil

/-- Inside a group, something is called for. -/
theorem pendingAfter_of_append {front : List Token} (h : IsGroup (front ++ rest))
    (hfront : front ≠ []) (hrest : rest ≠ []) :
    ∃ closer outer, pendingAfter [] (kindsOf front) = some (closer :: outer) := by
  generalize hgroup : front ++ rest = group at h
  obtain @⟨opener, closer, content, closes, hcontent⟩ := h
  obtain ⟨first, front, rfl⟩ := List.exists_cons_of_ne_nil hfront
  obtain ⟨rest', last, rfl⟩ := List.eq_nil_or_concat rest |>.resolve_left hrest
  rw [List.concat_eq_append, List.cons_append, ← List.append_assoc, List.cons_append,
    List.cons.injEq] at hgroup
  obtain ⟨rfl, htail⟩ := hgroup
  obtain ⟨rfl, -⟩ := List.append_inj' htail rfl
  rw [kindsOf, List.map_append] at hcontent
  obtain ⟨inner, hinner⟩ := hcontent.pendingAfter_of_append
  have hall : pendingAfter [] (kindsOf (first :: front)) = some (inner ++ [closer.kind]) := by
    rw [kindsOf, List.map_cons, pendingAfter, TokenKind.pending?_opener closes, Option.bind_some]
    exact hinner _
  rw [hall]
  cases inner with
  | nil => exact ⟨_, _, rfl⟩
  | cons closer inner => exact ⟨_, _, rfl⟩

theorem ne_nil (h : IsGroup group) : group ≠ [] := by
  obtain ⟨-, -⟩ := h
  nofun

/-- **No group ends within balanced tokens that start inside it.** -/
theorem not_straddles {front inside later : List Token} (hfront : front ≠ [])
    (hinside : inside ≠ []) (h : IsGroup (front ++ inside)) :
    ¬Balanced (kindsOf (inside ++ later)) := by
  intro hbalanced
  obtain ⟨closer, outer, hpending⟩ := h.pendingAfter_of_append hfront hinside
  rw [kindsOf, List.map_append] at hbalanced
  obtain ⟨inner, hinner⟩ := hbalanced.pendingAfter_of_append
  have hall := (balanced_iff _).1 h.balanced
  rw [kindsOf, List.map_append, pendingAfter_append, hpending, Option.bind_some, hinner] at hall
  simp at hall

/-- Of two groups at the same place, none goes on behind the other. -/
theorem append_inj {group' rest' : List Token} (h : IsGroup group) (h' : IsGroup group')
    (heq : group ++ rest = group' ++ rest') : group = group' ∧ rest = rest' := by
  -- The shorter one would have to be a proper part of the other, where something is called for.
  have hproper {front back : List Token} (hfront : IsGroup front) (hall : IsGroup (front ++ back)) :
      back = [] := by
    by_contra hback
    obtain ⟨closer, outer, hpending⟩ := hall.pendingAfter_of_append hfront.ne_nil hback
    rw [(balanced_iff _).1 hfront.balanced] at hpending
    cases hpending
  rcases List.append_eq_append_iff.1 heq with ⟨back, rfl, rfl⟩ | ⟨back, rfl, rfl⟩
  · obtain rfl := hproper h h'
    simp
  · obtain rfl := hproper h' h
    simp

end IsGroup

/-- A group that starts with the given delimiter. -/
structure IsGroupIn (opener : TokenKind) (group : List Token) : Prop where
  isGroup : IsGroup group
  starts : ∃ t later, group = t :: later ∧ t.kind = opener

/-- A group ends with the delimiter that its first one calls for. -/
theorem IsGroupIn.exists_last {opener closer : TokenKind} {group : List Token}
    (h : IsGroupIn opener group) (hcloser : opener.closer? = some closer) :
    ∃ front last, group = front ++ [last] ∧ last.kind = closer := by
  obtain ⟨t, later, hstarts, rfl⟩ := h.starts
  obtain @⟨first, last, content, closes, -⟩ := h.isGroup
  obtain ⟨rfl, -⟩ := List.cons.inj hstarts
  exact ⟨first :: content, last, rfl, Option.some.inj (closes.symm.trans hcloser)⟩

/-! ### Strays -/

/-- A delimiter that a parser may pass over by itself. -/
def TokenKind.IsStray (kind : TokenKind) : Prop := kind.isCloser = true ∨ kind = .openBrace

/-- Tokens in which every delimiter is closed by its own kind, innermost first, but for strays. -/
inductive BalancedBut : List Token → List Token → Prop
  | nil : BalancedBut [] []
  | plain {strays later : List Token} {t : Token} (plain : t.kind.IsPlain)
      (h : BalancedBut strays later) :
    BalancedBut strays (t :: later)
  | stray {strays later : List Token} {t : Token} (stray : t.kind.IsStray)
      (h : BalancedBut strays later) :
    BalancedBut (t :: strays) (t :: later)
  | group {inner outer content later : List Token} {opener closer : Token}
      (closes : opener.kind.closer? = some closer.kind) (hcontent : BalancedBut inner content)
      (hlater : BalancedBut outer later) :
    BalancedBut (inner ++ outer) (opener :: content ++ closer :: later)

namespace BalancedBut

variable {strays strays' tokens later : List Token}

/-- Stretches that are balanced but for strays, put together, are so but for the strays of both. -/
theorem append (h : BalancedBut strays tokens) (hlater : BalancedBut strays' later) :
    BalancedBut (strays ++ strays') (tokens ++ later) := by
  induction h with
  | nil => exact hlater
  | plain hplain _ ih => exact .plain hplain ih
  | stray hstray _ ih => exact .stray hstray ih
  | group closes hcontent _ _ ih =>
    rw [List.append_assoc, List.append_assoc, List.cons_append]
    exact .group closes hcontent ih

/-- A stray is one of the tokens, and a delimiter. -/
theorem mem_of_mem (h : BalancedBut strays tokens) {t : Token} (ht : t ∈ strays) :
    t ∈ tokens ∧ t.kind.IsStray := by
  induction h with
  | nil => cases ht
  | plain _ _ ih => exact ⟨List.mem_cons_of_mem _ (ih ht).1, (ih ht).2⟩
  | stray hstray _ ih =>
    rcases List.mem_cons.1 ht with rfl | ht
    · exact ⟨List.mem_cons_self, hstray⟩
    · exact ⟨List.mem_cons_of_mem _ (ih ht).1, (ih ht).2⟩
  | group _ _ _ ihcontent ihlater =>
    rcases List.mem_append.1 ht with ht | ht
    · have := ihcontent ht
      exact ⟨by simp [this.1], this.2⟩
    · have := ihlater ht
      exact ⟨by simp [this.1], this.2⟩

/-- The end of the file is not among the tokens. -/
theorem inside (h : BalancedBut strays tokens) : ∀ t ∈ tokens, t.kind ≠ .endOfFile := by
  induction h with
  | nil => simp
  | plain hplain _ ih => exact List.forall_mem_cons.2 ⟨hplain.inside, ih⟩
  | @stray _ _ t hstray _ ih =>
    refine List.forall_mem_cons.2 ⟨fun hend ↦ ?_, ih⟩
    rw [TokenKind.IsStray, hend] at hstray
    simp [TokenKind.isCloser] at hstray
  | @group _ _ content later opener closer closes _ _ ihcontent ihlater =>
    have hopener : opener.kind ≠ .endOfFile := fun hend ↦ by
      rw [hend] at closes
      cases closes
    have hcloser : closer.kind ≠ .endOfFile := fun hend ↦ by
      have hiscloser := (TokenKind.closer?_closer closes).2
      rw [hend] at hiscloser
      cases hiscloser
    rw [List.forall_mem_append]
    exact ⟨List.forall_mem_cons.2 ⟨hopener, ihcontent⟩, List.forall_mem_cons.2 ⟨hcloser, ihlater⟩⟩

/-- Without strays, the tokens are balanced. -/
theorem balanced (h : BalancedBut [] tokens) : Balanced (kindsOf tokens) := by
  generalize hstrays : ([] : List Token) = strays at h
  induction h with
  | nil => exact .nil
  | plain hplain _ ih => exact .cons hplain.noOpener hplain.noCloser hplain.inside (ih hstrays)
  | stray => cases hstrays
  | group closes _ _ ihcontent ihlater =>
    obtain ⟨rfl, rfl⟩ := List.append_eq_nil_iff.1 hstrays.symm
    simpa [kindsOf] using Balanced.group closes (ihcontent rfl) (ihlater rfl)

end BalancedBut

/-- A balanced stretch has no strays. -/
theorem Balanced.balancedBut {tokens : List Token} (h : Balanced (kindsOf tokens)) :
    BalancedBut [] tokens := by
  generalize hkinds : kindsOf tokens = kinds at h
  induction h generalizing tokens with
  | nil =>
    obtain rfl := List.map_eq_nil_iff.1 hkinds
    exact .nil
  | cons noOpener noCloser inside _ ih =>
    obtain ⟨t, later, rfl, rfl, hlater⟩ := List.map_eq_cons_iff.1 hkinds
    exact .plain ⟨noOpener, noCloser, inside⟩ (ih hlater)
  | group closes _ _ ihcontent ihlater =>
    obtain ⟨front, back, rfl, hfront, hback⟩ := List.map_eq_append_iff.1 hkinds
    obtain ⟨opener, content, rfl, rfl, hcontent⟩ := List.map_eq_cons_iff.1 hfront
    obtain ⟨closer, later, rfl, rfl, hlater⟩ := List.map_eq_cons_iff.1 hback
    exact .group closes (ihcontent hcontent) (ihlater hlater)

end DoubleDispatch
