import DoubleDispatch.Proofs.Declaration.Likeness
import DoubleDispatch.Proofs.Lists
import DoubleDispatch.Proofs.Parsing.Passage

/-!
# Two sources side by side

A parser looks at the kinds of tokens and not at what stands between them. So in two sources with
tokens of the same kinds it does the same, token by token, and what it gives differs only in offsets
and in the texts that are cut out of the sources. A `Pairing` says which tokens are compared, up to
a tail of either source, and which offsets belong together. For each parser there is one statement:
if it succeeds in the left source before the tail, then it does so in the right one, with a result
that is alike. Failures are compared by looking at the sources the other way round (`Pairing.swap`).
-/

namespace DoubleDispatch

/-- Two sources that are compared up to a tail of either, with the offsets that belong together. If
the pairing is exact, the texts between such offsets are the same in both sources, and if it is
ordered, their order is. -/
structure Pairing where
  left : List Char
  right : List Char
  leftTail : List Token
  rightTail : List Token
  Meet : Nat → Nat → Prop
  IsExact : Prop
  IsOrdered : Prop
  slice_eq : IsExact → ∀ {n n' m m'}, Meet n n' → Meet m m' →
    Text.slice n' m' right = Text.slice n m left
  lt_iff : IsOrdered → ∀ {n n' m m'}, Meet n n' → Meet m m' → (n' < m' ↔ n < m)

namespace Pairing

variable (P : Pairing)

/-- The sources the other way round. -/
def swap : Pairing where
  left := P.right
  right := P.left
  leftTail := P.rightTail
  rightTail := P.leftTail
  Meet n n' := P.Meet n' n
  IsExact := P.IsExact
  IsOrdered := P.IsOrdered
  slice_eq he _ _ _ _ hn hm := (P.slice_eq he hn hm).symm
  lt_iff ho _ _ _ _ hn hm := (P.lt_iff ho hn hm).symm

/-- Tokens that are compared: they have the same kind and stand at offsets that belong together. -/
structure Meets (t t' : Token) : Prop where
  kind : t'.kind = t.kind
  start : P.Meet t.span.start t'.span.start
  stop : P.Meet t.span.stop t'.span.stop

/-- A stream of the left source and one of the right source, with tokens ahead that meet one by one
up to the tails. -/
def Beside (s s' : Stream) : Prop :=
  ∃ front front', s.ahead = front ++ P.leftTail ∧ s'.ahead = front' ++ P.rightTail ∧
    List.Forall₂ P.Meets front front'

/-- The streams stand side by side, and the tokens that were taken last ended at offsets that belong
together. -/
structure Level (s s' : Stream) : Prop where
  beside : P.Beside s s'
  prevEnd : P.Meet s.prevEnd s'.prevEnd

/-- The tail has not been passed. -/
def UpTo (s : Stream) : Prop := P.leftTail <:+ s.ahead

/-- The tail has not been reached, unless there is none. -/
def Before (s : Stream) : Prop :=
  (P.leftTail = [] ∧ P.rightTail = []) ∨ ∃ t front, s.ahead = t :: (front ++ P.leftTail)

variable {P} {s s' t : Stream}

/-- Streams side by side are so the other way round as well. -/
theorem Beside.swap (h : P.Beside s s') : P.swap.Beside s' s := by
  obtain ⟨front, front', hfront, hfront', hmeets⟩ := h
  refine ⟨front', front, hfront', hfront, ?_⟩
  exact hmeets.flip.imp fun _ _ h ↦ ⟨h.kind.symm, h.start, h.stop⟩

/-- Where the tail has not been reached, it has not been passed. -/
theorem Before.upTo (h : P.Before s) : P.UpTo s := by
  rcases h with ⟨hnone, -⟩ | ⟨t, front, hahead⟩
  · rw [UpTo, hnone]
    exact List.nil_suffix
  · exact ⟨t :: front, hahead.symm⟩

theorem UpTo.of_suffix (h : P.UpTo t) (hst : t.ahead <:+ s.ahead) : P.UpTo s := h.trans hst

theorem Before.of_suffix (h : P.Before t) (hst : t.ahead <:+ s.ahead) : P.Before s := by
  rcases h with hnone | ⟨x, front, hahead⟩
  · exact .inl hnone
  · obtain ⟨_ | ⟨y, taken⟩, htaken⟩ := hst
    · exact .inr ⟨x, front, by rw [← htaken, hahead]; rfl⟩
    · exact .inr ⟨y, taken ++ x :: front, by rw [← htaken, hahead]; simp⟩

/-- Before what is taken without reaching the tail, it has not been reached. -/
theorem Before.of_takes (h : P.Before t) (hst : Stream.Takes TokenKind.IsInner s t) :
    P.Before s :=
  h.of_suffix hst.suffix

/-- Before tokens that are taken up to the tail, the tail has not been reached. -/
theorem UpTo.before_append (h : P.UpTo t) {taken : List Token} (hne : taken ≠ [])
    (hahead : s.ahead = taken ++ t.ahead) : P.Before s := by
  obtain ⟨front, hfront⟩ := h
  obtain ⟨x, later, rfl⟩ := List.exists_cons_of_ne_nil hne
  exact .inr ⟨x, later ++ front, by rw [hahead, ← hfront]; simp⟩

/-- One step before a place up to the tail, the tail has not been reached. -/
theorem UpTo.before (h : P.UpTo s.advance) (hs : s.kind ≠ .endOfFile) : P.Before s := by
  obtain ⟨x, hahead, -⟩ := Stream.exists_ahead_eq hs
  exact h.before_append (List.cons_ne_nil x []) hahead

theorem UpTo.before_group (h : P.UpTo t) (hopener : s.kind.closer?.isSome)
    (hskip : s.skipGroup = .ok t) : P.Before s := by
  obtain ⟨group, hahead, hgroup⟩ := Stream.exists_group_of_skipGroup hopener hskip
  exact h.before_append hgroup.isGroup.ne_nil hahead

namespace Beside

/-- If one token is left before the tail, then on the other side as well. -/
theorem exists_ahead_eq (h : P.Beside s s') {t : Token} (hahead : s.ahead = t :: P.leftTail) :
    ∃ t', P.Meets t t' ∧ s'.ahead = t' :: P.rightTail := by
  obtain ⟨front, front', hfront, hfront', hmeets⟩ := h
  obtain rfl : front = [t] := List.append_cancel_right (hfront.symm.trans hahead)
  obtain ⟨t', none', hmeet, hnone, rfl⟩ := List.forall₂_cons_left_iff.1 hmeets
  obtain rfl := List.forall₂_nil_left_iff.1 hnone
  exact ⟨t', hmeet, hfront'⟩

/-- Either there is a token ahead on both sides, or nothing is ahead at all. -/
theorem cases_of_before (h : P.Beside s s') (hs : P.Before s) :
    (s.ahead = [] ∧ s'.ahead = []) ∨
      ∃ t ts t' ts', s.ahead = t :: ts ∧ s'.ahead = t' :: ts' ∧ P.Meets t t' ∧
        ∀ prevEnd prevEnd', P.Beside ⟨ts, prevEnd⟩ ⟨ts', prevEnd'⟩ := by
  obtain ⟨front, front', hfront, hfront', hmeets⟩ := h
  cases hmeets with
  | nil =>
    rcases hs with ⟨hleft, hright⟩ | ⟨t, front, hahead⟩
    · exact .inl ⟨by rw [hfront, hleft]; rfl, by rw [hfront', hright]; rfl⟩
    · have hlength := congrArg List.length (hfront.symm.trans hahead)
      simp only [List.nil_append, List.length_cons, List.length_append] at hlength
      omega
  | cons hmeet hmeets =>
    exact .inr ⟨_, _, _, _, hfront, hfront', hmeet, fun _ _ ↦ ⟨_, _, rfl, rfl, hmeets⟩⟩

/-- Before the tails, both streams have a token of the same kind ahead. -/
theorem kind_eq (h : P.Beside s s') (hs : P.Before s) : s'.kind = s.kind := by
  obtain ⟨ahead, prevEnd⟩ := s
  obtain ⟨ahead', prevEnd'⟩ := s'
  rcases h.cases_of_before hs with ⟨rfl, rfl⟩ | ⟨t, ts, t', ts', rfl, rfl, hmeet, -⟩
  · rfl
  · exact hmeet.kind

/-- Before the tails, a step on both sides keeps the streams side by side. -/
protected theorem advance (h : P.Beside s s') (hs : P.Before s) :
    P.Beside s.advance s'.advance := by
  obtain ⟨ahead, prevEnd⟩ := s
  obtain ⟨ahead', prevEnd'⟩ := s'
  have hkind := h.kind_eq hs
  by_cases hend : Stream.kind ⟨ahead, prevEnd⟩ = .endOfFile
  · rwa [Stream.advance_of_endOfFile hend, Stream.advance_of_endOfFile (hkind.trans hend)]
  · rcases h.cases_of_before hs with ⟨rfl, rfl⟩ | ⟨t, ts, t', ts', rfl, rfl, hmeet, hrest⟩
    · exact absurd rfl hend
    · have hend' : t'.kind ≠ .endOfFile := by rwa [hmeet.kind]
      rw [Stream.advance_cons hend, Stream.advance_cons hend']
      exact hrest _ _

/-- Behind a token that was taken, the streams are level. -/
theorem level_advance (h : P.Beside s s') (hs : P.Before s) (hend : s.kind ≠ .endOfFile) :
    P.Level s.advance s'.advance := by
  refine ⟨h.advance hs, ?_⟩
  have hend' : s'.kind ≠ .endOfFile := by rwa [h.kind_eq hs]
  obtain ⟨ahead, prevEnd⟩ := s
  obtain ⟨ahead', prevEnd'⟩ := s'
  rcases h.cases_of_before hs with ⟨rfl, rfl⟩ | ⟨t, ts, t', ts', rfl, rfl, hmeet, -⟩
  · exact absurd rfl hend
  · rw [Stream.advance_cons hend, Stream.advance_cons hend']
    exact hmeet.stop

/-- The spans of tokens that are ahead stand for each other. -/
theorem meet_span (h : P.Beside s s') (hs : P.Before s) (hend : s.kind ≠ .endOfFile) :
    P.Meet s.span.start s'.span.start ∧ P.Meet s.span.stop s'.span.stop := by
  obtain ⟨ahead, prevEnd⟩ := s
  obtain ⟨ahead', prevEnd'⟩ := s'
  rcases h.cases_of_before hs with ⟨rfl, rfl⟩ | ⟨t, ts, t', ts', rfl, rfl, hmeet, -⟩
  · exact absurd rfl hend
  · exact ⟨hmeet.start, hmeet.stop⟩

/-- Before the tails, the tokens ahead start at offsets that belong together. -/
theorem meet_start (h : P.Beside s s') (hs : P.Before s) (hend : s.kind ≠ .endOfFile) :
    P.Meet s.start s'.start :=
  (h.meet_span hs hend).1

theorem secondKind_eq (h : P.Beside s s') (hs : P.Before s.advance) (hend : s.kind ≠ .endOfFile) :
    s'.secondKind = s.secondKind := by
  have hbefore := hs.upTo.before hend
  have hend' : s'.kind ≠ .endOfFile := by rwa [h.kind_eq hbefore]
  rw [Stream.secondKind_eq_kind_advance hend, Stream.secondKind_eq_kind_advance hend',
    (h.advance hbefore).kind_eq hs]

/-! ### Groups -/

/-- What is a group depends on the kinds of its tokens. -/
theorem isGroup_of_forall₂ {group group' : List Token} (h : IsGroup group)
    (hmeets : List.Forall₂ P.Meets group group') : IsGroup group' := by
  obtain @⟨opener, closer, content, closes, hcontent⟩ := h
  obtain ⟨front', back', rfl, hfront, hback⟩ := exists_of_forall₂_append hmeets
  obtain ⟨opener', content', hopener, hcontent', rfl⟩ := List.forall₂_cons_left_iff.1 hfront
  obtain ⟨closer', rest, hcloser, hrest, rfl⟩ := List.forall₂_cons_left_iff.1 hback
  obtain rfl := List.forall₂_nil_left_iff.1 hrest
  have hkinds : kindsOf content' = kindsOf content := by
    clear hcontent hmeets hfront
    induction hcontent' with
    | nil => rfl
    | cons hmeet _ ih => rw [kindsOf, List.map_cons, hmeet.kind, ← kindsOf, ih]; rfl
  refine .mk ?_ (by rwa [hkinds])
  rw [hopener.kind, hcloser.kind, closes]

/-- Tokens that meet one by one end at offsets that belong together. -/
theorem meet_stopBehind {ts ts' : List Token} (h : List.Forall₂ P.Meets ts ts') (hne : ts ≠ [])
    (prevEnd prevEnd' : Nat) : P.Meet (stopBehind prevEnd ts) (stopBehind prevEnd' ts') := by
  induction h generalizing prevEnd prevEnd' with
  | nil => exact absurd rfl hne
  | @cons t t' ts ts' hmeet hrest ih =>
    by_cases hlast : ts = []
    · subst hlast
      obtain rfl := List.forall₂_nil_left_iff.1 hrest
      exact hmeet.stop
    · exact ih hlast _ _

/-- **A group is skipped on both sides.** -/
theorem skipGroup (h : P.Beside s s') (hopener : s.kind.closer?.isSome)
    (hskip : s.skipGroup = .ok t) (ht : P.UpTo t) :
    ∃ t', s'.skipGroup = .ok t' ∧ P.Level t t' := by
  obtain ⟨group, hahead, hgroup⟩ := Stream.exists_group_of_skipGroup hopener hskip
  obtain ⟨front, front', hfront, hfront', hmeets⟩ := h
  obtain ⟨rest, hrest⟩ := ht
  obtain ⟨ahead, prevEnd⟩ := s
  obtain ⟨ahead', prevEnd'⟩ := s'
  obtain rfl : front = group ++ rest := by
    refine List.append_cancel_right (?_ : front ++ P.leftTail = group ++ rest ++ P.leftTail)
    rw [← hfront, List.append_assoc, hrest, ← hahead]
  obtain ⟨group', rest', rfl, hgroups, hrests⟩ := exists_of_forall₂_append hmeets
  obtain rfl : ahead = group ++ t.ahead := hahead
  obtain rfl : ahead' = group' ++ (rest' ++ P.rightTail) := by
    rw [← List.append_assoc]
    exact hfront'
  rw [Stream.skipGroup_of_isGroup hgroup.isGroup] at hskip
  refine ⟨_, Stream.skipGroup_of_isGroup (isGroup_of_forall₂ hgroup.isGroup hgroups) _ _,
    ⟨rest, rest', hrest.symm, rfl, hrests⟩, ?_⟩
  rw [← Except.ok.inj hskip]
  exact meet_stopBehind hgroups hgroup.isGroup.ne_nil _ _

end Beside

/-- Whether a token is taken or the end has been reached, level streams stay level. -/
protected theorem Level.advance (h : P.Level s s') (hs : P.Before s) :
    P.Level s.advance s'.advance := by
  by_cases hend : s.kind = .endOfFile
  · have hend' := (h.beside.kind_eq hs).trans hend
    rwa [Stream.advance_of_endOfFile hend, Stream.advance_of_endOfFile hend']
  · exact h.beside.level_advance hs hend

end Pairing

end DoubleDispatch
