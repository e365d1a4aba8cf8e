import DoubleDispatch.Proofs.Parsing.Passage

/-!
# Which groups are skipped

From an opening delimiter on, the tokens up to the end of the file start with a group, or they come
to a closing delimiter that does not close what was opened last, or the end of the file is reached
with groups open; there is nothing else (`startsGroup_or`). Skipping a group tells these apart
(`Stream.skipGroup_eq_iff`): it takes exactly the group, it rejects exactly the first closing
delimiter that does not match, and else it points at the innermost delimiter that is left open.

What is open behind some tokens is told by a grammar of its own (`LeavesOpen`), which does not speak
of a stack: opening delimiters with balanced tokens behind each.
-/

namespace DoubleDispatch

/-! ### Open groups -/

/-- Tokens that open groups one inside the other and close none of these; the last one is opened by
`inner`. What stands between them is balanced. -/
inductive LeavesOpen (inner : Token) : List Token → Prop
  | last {content : List Token} (opens : inner.kind.closer?.isSome)
      (balanced : Balanced (kindsOf content)) : LeavesOpen inner (inner :: content)
  | outer {opener : Token} {content later : List Token} (opens : opener.kind.closer?.isSome)
      (balanced : Balanced (kindsOf content)) (h : LeavesOpen inner later) :
    LeavesOpen inner (opener :: (content ++ later))

namespace LeavesOpen

variable {inner t : Token} {tokens : List Token}

theorem opens (h : LeavesOpen inner tokens) : inner.kind.closer?.isSome := by
  induction h with
  | last opens _ => exact opens
  | outer _ _ _ ih => exact ih

/-- Tokens that leave a group open start with an opening delimiter. -/
theorem exists_eq_cons (h : LeavesOpen inner tokens) : ∃ first later, tokens = first :: later := by
  cases h with
  | last => exact ⟨_, _, rfl⟩
  | outer => exact ⟨_, _, rfl⟩

/-- A token that is no delimiter leaves open what was. -/
theorem append_plain (h : LeavesOpen inner tokens) (ht : t.kind.IsPlain) :
    LeavesOpen inner (tokens ++ [t]) := by
  have hplain : Balanced (kindsOf [t]) := .cons ht.noOpener ht.noCloser ht.inside .nil
  induction h with
  | @last content opens balanced =>
    have hcontent : Balanced (kindsOf (content ++ [t])) := by
      rw [kindsOf, List.map_append]
      exact balanced.append hplain
    exact .last opens hcontent
  | outer opens balanced _ ih =>
    rw [List.cons_append, List.append_assoc]
    exact .outer opens balanced ih

/-- An opening delimiter opens a group inside the others. -/
theorem append_opener (h : LeavesOpen inner tokens) (ht : t.kind.closer?.isSome) :
    LeavesOpen t (tokens ++ [t]) := by
  have hlast : LeavesOpen t [t] := .last ht .nil
  induction h with
  | last opens balanced => exact .outer opens balanced hlast
  | outer opens balanced _ ih =>
    rw [List.cons_append, List.append_assoc]
    exact .outer opens balanced ih

/-- The closing delimiter of the innermost group ends the outermost one, or leaves that open. -/
theorem append_closer (h : LeavesOpen inner tokens) (ht : inner.kind.closer? = some t.kind) :
    IsGroup (tokens ++ [t]) ∨ ∃ next, LeavesOpen next (tokens ++ [t]) := by
  induction h with
  | last _ balanced => exact .inl ⟨ht, balanced⟩
  | @outer opener content later opens balanced _ ih =>
    rw [List.cons_append, List.append_assoc]
    rcases ih with hgroup | ⟨next, hnext⟩
    · refine .inr ⟨opener, .last opens ?_⟩
      rw [kindsOf, List.map_append]
      exact balanced.append hgroup.balanced
    · exact .inr ⟨next, .outer opens balanced hnext⟩

end LeavesOpen

/-- The tokens come to a closing delimiter `t` that does not close the group opened by `inner`,
which is the innermost one there. -/
def ComesToMismatch (tokens : List Token) (inner t : Token) : Prop :=
  ∃ front later, tokens = front ++ t :: later ∧ LeavesOpen inner front ∧ t.kind.isCloser = true ∧
    inner.kind.closer? ≠ some t.kind

theorem ComesToMismatch.opens {tokens : List Token} {inner t : Token}
    (h : ComesToMismatch tokens inner t) : inner.kind.closer?.isSome := by
  obtain ⟨_, _, -, hopen, -⟩ := h
  exact hopen.opens

/-- The tokens come to the end of the file inside the group opened by `inner`. -/
def EndsInside (tokens : List Token) (inner : Token) : Prop :=
  ∃ front t later, tokens = front ++ t :: later ∧ LeavesOpen inner front ∧ t.kind = .endOfFile

/-- With groups open, the tokens up to the end of the file close all of them, or come to a closing
delimiter that does not match, or end inside one. -/
theorem closesGroup_or {inner : Token} {front later : List Token} (h : LeavesOpen inner front)
    (hend : ∃ t ∈ later, t.kind = .endOfFile) :
    (∃ group rest, front ++ later = group ++ rest ∧ IsGroup group) ∨
      (∃ inner t, ComesToMismatch (front ++ later) inner t) ∨
      ∃ inner, EndsInside (front ++ later) inner := by
  induction later generalizing front inner with
  | nil => simp at hend
  | cons t later ih =>
    by_cases ht : t.kind = .endOfFile
    · exact .inr (.inr ⟨inner, front, t, later, rfl, h, ht⟩)
    · have hlater : ∃ t ∈ later, t.kind = .endOfFile := by simpa [ht] using hend
      rw [List.append_cons]
      by_cases hopens : t.kind.closer?.isSome
      · exact ih (h.append_opener hopens) hlater
      · have hnone : t.kind.closer? = none := by simpa using hopens
        by_cases hcloser : t.kind.isCloser = true
        · by_cases hmatch : inner.kind.closer? = some t.kind
          · rcases h.append_closer hmatch with hgroup | ⟨next, hnext⟩
            · exact .inl ⟨_, later, rfl, hgroup⟩
            · exact ih hnext hlater
          · rw [← List.append_cons]
            exact .inr (.inl ⟨inner, t, front, later, rfl, h, hcloser, hmatch⟩)
        · exact ih (h.append_plain ⟨hnone, by simpa using hcloser, ht⟩) hlater

/-- **From an opening delimiter on** the tokens start with a group, or come to a closing delimiter
that does not match, or end inside a group. -/
theorem startsGroup_or {tokens : List Token} {t : Token} (hopens : t.kind.closer?.isSome)
    (hend : ∃ u ∈ tokens, u.kind = .endOfFile) :
    (∃ group rest, t :: tokens = group ++ rest ∧ IsGroup group) ∨
      (∃ inner u, ComesToMismatch (t :: tokens) inner u) ∨
      ∃ inner, EndsInside (t :: tokens) inner :=
  closesGroup_or (.last hopens .nil : LeavesOpen t [t]) hend

/-! ### Depth of nesting -/

/-- How many more delimiters open than close. -/
def nesting (kinds : List TokenKind) : Int :=
  kinds.countP (·.closer?.isSome) - kinds.countP (·.isCloser)

theorem nesting_cons (kind : TokenKind) (kinds : List TokenKind) :
    nesting (kind :: kinds) = nesting [kind] + nesting kinds := by
  simp only [nesting, List.countP_cons, List.countP_nil]
  omega

namespace TokenKind

variable {kind : TokenKind}

/-- An opening delimiter is no closing one. -/
theorem isCloser_eq_false_of_closer? {closer : TokenKind} (h : kind.closer? = some closer) :
    kind.isCloser = false := by
  cases kind <;> cases h <;> rfl

theorem closer?_eq_none_of_isCloser (h : kind.isCloser = true) : kind.closer? = none := by
  cases kind <;> cases h <;> rfl

/-- One token more changes the number of delimiters that are called for as it changes the nesting.
-/
theorem length_pending? {pending next : List TokenKind} (h : kind.pending? pending = some next) :
    (next.length : Int) = pending.length + nesting [kind] := by
  unfold pending? at h
  split at h
  next closer hcloser =>
    obtain rfl := Option.some.inj h
    simp [nesting, hcloser, isCloser_eq_false_of_closer? hcloser]
  next hnone =>
    split at h
    next hcloser =>
      cases pending with
      | nil => cases h
      | cons closer outer =>
        dsimp only at h
        split at h
        · obtain rfl := Option.some.inj h
          have hkind : nesting [kind] = -1 := by simp [nesting, hnone, hcloser]
          rw [hkind, List.length_cons]
          omega
        · cases h
    next hcloser =>
      split at h
      · cases h
      · obtain rfl := Option.some.inj h
        simp [nesting, hnone, hcloser]

end TokenKind

/-- The delimiters that are called for are as many as the nesting is deep. -/
theorem length_pendingAfter {pending next kinds : List TokenKind}
    (h : pendingAfter pending kinds = some next) :
    (next.length : Int) = pending.length + nesting kinds := by
  induction kinds generalizing pending with
  | nil =>
    obtain rfl : pending = next := Option.some.inj h
    simp [nesting]
  | cons kind kinds ih =>
    obtain ⟨between, hbetween, hnext⟩ := Option.bind_eq_some_iff.1 h
    have hstep := TokenKind.length_pending? hbetween
    have hlater := ih hnext
    rw [nesting_cons]
    omega

namespace IsGroup

variable {group : List Token}

/-- At the end of a group, nesting is back where it was. -/
theorem nesting_eq_zero (h : IsGroup group) : nesting (kindsOf group) = 0 := by
  have hlength := length_pendingAfter ((balanced_iff _).1 h.balanced)
  simpa using hlength.symm

/-- Inside a group, nesting is deeper than around it. -/
theorem nesting_pos {front back : List Token} (h : IsGroup (front ++ back)) (hfront : front ≠ [])
    (hback : back ≠ []) : 0 < nesting (kindsOf front) := by
  obtain ⟨closer, outer, hpending⟩ := h.pendingAfter_of_append hfront hback
  have hlength := length_pendingAfter hpending
  simp only [List.length_cons, List.length_nil] at hlength
  omega

end IsGroup

/-! ### Skipping -/

namespace Stream

variable {inner t : Token} {tokens : List Token}

/-- Behind tokens that leave groups open, the innermost of them is on top of the stack. -/
theorem skipGroups_leavesOpen (h : LeavesOpen inner tokens) (groups : List OpenGroup)
    (prevEnd : Nat) (t : Token) (ts : List Token) :
    ∃ closer outer, inner.kind.closer? = some closer ∧
      skipGroups groups prevEnd (tokens ++ t :: ts) =
        skipGroups (⟨closer, inner.span⟩ :: outer) 0 (t :: ts) := by
  induction h generalizing groups prevEnd with
  | last opens balanced =>
    obtain ⟨closer, hcloser⟩ := Option.isSome_iff_exists.1 opens
    refine ⟨closer, groups, hcloser, ?_⟩
    rw [List.cons_append, skipGroups, groupsAfter_opener hcloser]
    exact skipGroups_balanced balanced rfl _ _ _ _ _
  | @outer opener content later opens balanced hlater ih =>
    obtain ⟨between, hbetween⟩ := Option.isSome_iff_exists.1 opens
    obtain ⟨first, more, rfl⟩ := hlater.exists_eq_cons
    obtain ⟨closer, outer, hcloser, heq⟩ := ih (⟨between, opener.span⟩ :: groups) 0
    refine ⟨closer, outer, hcloser, ?_⟩
    rw [List.cons_append, List.append_assoc, skipGroups, groupsAfter_opener hbetween]
    exact (skipGroups_balanced balanced rfl _ _ _ _ _).trans heq

/-- A closing delimiter that does not match is rejected, and the one that would is named. -/
theorem skipGroup_of_comesToMismatch {closer : TokenKind} (prevEnd : Nat)
    (h : ComesToMismatch tokens inner t) (hinner : inner.kind.closer? = some closer) :
    skipGroup ⟨tokens, prevEnd⟩ =
      .error (.rejected (.unexpected (.token closer) t.kind) t.span) := by
  obtain ⟨front, later, rfl, hopen, hcloser, hmismatch⟩ := h
  obtain ⟨between, outer, hbetween, heq⟩ := skipGroups_leavesOpen hopen [] prevEnd t later
  obtain rfl : closer = between := Option.some.inj (hinner.symm.trans hbetween)
  have hnone := TokenKind.closer?_eq_none_of_isCloser hcloser
  have hne : closer ≠ t.kind := fun hkind ↦ hmismatch (hkind ▸ hinner)
  have hafter : groupsAfter (⟨closer, inner.span⟩ :: outer) t =
      .error (.rejected (.unexpected (.token closer) t.kind) t.span) := by
    simp [groupsAfter, hnone, hcloser, hne]
  rw [skipGroup, heq, skipGroups, hafter]

/-- At the end of the file, the innermost delimiter that is left open is pointed at. -/
theorem skipGroup_of_endsInside (prevEnd : Nat) (h : EndsInside tokens inner) :
    skipGroup ⟨tokens, prevEnd⟩ = .error (.rejected .unclosedDelimiter inner.span) := by
  obtain ⟨front, t, later, rfl, hopen, hend⟩ := h
  obtain ⟨closer, outer, -, heq⟩ := skipGroups_leavesOpen hopen [] prevEnd t later
  have hafter : groupsAfter (⟨closer, inner.span⟩ :: outer) t =
      .error (.rejected .unclosedDelimiter inner.span) := by
    simp [groupsAfter, hend, TokenKind.closer?, TokenKind.isCloser]
  rw [skipGroup, heq, skipGroups, hafter]

variable {s : Stream}

/-- Skipping succeeds exactly where the tokens start with a group, and stops behind it. -/
theorem skipGroup_eq_ok_iff {next : Stream} (hopens : s.kind.closer?.isSome) :
    s.skipGroup = .ok next ↔ ∃ group, IsGroup group ∧ s.ahead = group ++ next.ahead ∧
      next.prevEnd = stopBehind s.prevEnd group := by
  constructor
  · intro h
    obtain ⟨group, hahead, hgroup⟩ := exists_group_of_skipGroup hopens h
    have hskip := skipGroup_of_isGroup hgroup.isGroup next.ahead s.prevEnd
    rw [← hahead] at hskip
    exact ⟨group, hgroup.isGroup, hahead, congrArg prevEnd (Except.ok.inj (h.symm.trans hskip))⟩
  · rintro ⟨group, hgroup, hahead, hstop⟩
    have hskip := skipGroup_of_isGroup hgroup next.ahead s.prevEnd
    rwa [← hahead, ← hstop] at hskip

/-- Where skipping fails, there is a delimiter that does not match or one that is left open. -/
theorem exists_of_skipGroup_eq_error {e : ParseError} (hopens : s.kind.closer?.isSome)
    (hend : ∃ t ∈ s.ahead, t.kind = .endOfFile) (h : s.skipGroup = .error e) :
    (∃ inner t, ComesToMismatch s.ahead inner t) ∨ ∃ inner, EndsInside s.ahead inner := by
  obtain ⟨ahead, prevEnd⟩ := s
  cases ahead with
  | nil => simp at hend
  | cons t later =>
    have ht : t.kind.closer?.isSome := hopens
    have hinside : t.kind ≠ .endOfFile := by
      intro heof
      rw [heof] at ht
      cases ht
    have hlater : ∃ u ∈ later, u.kind = .endOfFile := by simpa [hinside] using hend
    rcases startsGroup_or ht hlater with ⟨group, rest, heq, hgroup⟩ | hstop
    · rw [heq, skipGroup_of_isGroup hgroup] at h
      cases h
    · exact hstop

/-- **Skipping a group recognises groups.** From an opening delimiter on, in tokens that end with
the end of the file, skipping succeeds exactly if they start with a group, and stops behind it,
which is the first place at which nesting is back to zero. It fails at a closing delimiter exactly
if that is the first one that does not close the innermost group, and the message names the one that
would; and it fails at an opening delimiter exactly if that is the innermost one which is open at
the end of the file. It fails in no other way. -/
theorem skipGroup_eq_iff (hopens : s.kind.closer?.isSome)
    (hend : ∃ front eof, s.ahead = front ++ [eof] ∧ eof.kind = .endOfFile) :
    (∀ next, s.skipGroup = .ok next ↔ ∃ group, IsGroup group ∧ s.ahead = group ++ next.ahead ∧
      next.prevEnd = stopBehind s.prevEnd group) ∧
    (∀ next, s.skipGroup = .ok next → ∃ group, s.ahead = group ++ next.ahead ∧
      nesting (kindsOf group) = 0 ∧
      ∀ front back, group = front ++ back → front ≠ [] → back ≠ [] → 0 < nesting (kindsOf front)) ∧
    ∀ e, s.skipGroup = .error e ↔
      (∃ inner t closer, ComesToMismatch s.ahead inner t ∧ inner.kind.closer? = some closer ∧
        e = .rejected (.unexpected (.token closer) t.kind) t.span) ∨
      ∃ inner, EndsInside s.ahead inner ∧ e = .rejected .unclosedDelimiter inner.span := by
  refine ⟨fun _ ↦ skipGroup_eq_ok_iff hopens, fun next h ↦ ?_, fun e ↦ ⟨fun h ↦ ?_, ?_⟩⟩
  · obtain ⟨group, hgroup, hahead, -⟩ := (skipGroup_eq_ok_iff hopens).1 h
    refine ⟨group, hahead, hgroup.nesting_eq_zero, ?_⟩
    rintro front back rfl hfront hback
    exact hgroup.nesting_pos hfront hback
  · have heof : ∃ t ∈ s.ahead, t.kind = .endOfFile := by
      obtain ⟨front, eof, hahead, hkind⟩ := hend
      exact ⟨eof, by simp [hahead], hkind⟩
    rcases exists_of_skipGroup_eq_error hopens heof h with ⟨inner, t, hmismatch⟩ | ⟨inner, hinside⟩
    · obtain ⟨closer, hinner⟩ := Option.isSome_iff_exists.1 hmismatch.opens
      have hskip := skipGroup_of_comesToMismatch s.prevEnd hmismatch hinner
      exact .inl ⟨inner, t, closer, hmismatch, hinner, Except.error.inj (h.symm.trans hskip)⟩
    · have hskip := skipGroup_of_endsInside s.prevEnd hinside
      exact .inr ⟨inner, hinside, Except.error.inj (h.symm.trans hskip)⟩
  · rintro (⟨inner, t, closer, hmismatch, hinner, rfl⟩ | ⟨inner, hinside, rfl⟩)
    · exact skipGroup_of_comesToMismatch s.prevEnd hmismatch hinner
    · exact skipGroup_of_endsInside s.prevEnd hinside

/-- A group with an unlike one inside, a bracket that a parenthesis would close, and a brace behind
a group that is left open. -/
theorem skipGroup_eq_iff_samples :
    let token (kind : TokenKind) (n : Nat) : Token := ⟨kind, ⟨n, n + 1⟩⟩
    let group := [token .openParen 0, token .openBracket 1, token .closeBracket 2,
      token .closeParen 3]
    let closed : Stream := ⟨group ++ [token .comma 4, token .endOfFile 5], 0⟩
    let crossed : Stream := ⟨[token .openParen 0, token .openBracket 1, token .closeParen 2,
      token .closeBracket 3, token .endOfFile 4], 0⟩
    let unclosed : Stream := ⟨[token .openParen 0] ++ group.map (Token.moved 1) ++
      [token .openBrace 5, token .comma 6, token .endOfFile 7], 0⟩
    (closed.kind.closer?.isSome ∧ (∃ front eof, closed.ahead = front ++ [eof] ∧
        eof.kind = .endOfFile) ∧
      closed.skipGroup = .ok ⟨[token .comma 4, token .endOfFile 5], 4⟩) ∧
    (crossed.kind.closer?.isSome ∧ (∃ front eof, crossed.ahead = front ++ [eof] ∧
        eof.kind = .endOfFile) ∧
      crossed.skipGroup =
        .error (.rejected (.unexpected (.token .closeBracket) .closeParen) ⟨2, 3⟩) ∧
      ParseFault.message (.unexpected (.token .closeBracket) .closeParen) =
        "expected `]`, found `)`") ∧
    unclosed.kind.closer?.isSome ∧ (∃ front eof, unclosed.ahead = front ++ [eof] ∧
        eof.kind = .endOfFile) ∧
      unclosed.skipGroup = .error (.rejected .unclosedDelimiter ⟨5, 6⟩) := by
  intro token group closed crossed unclosed
  have hgroup : IsGroup group :=
    @IsGroup.mk _ (token .closeParen 3) [token .openBracket 1, token .closeBracket 2] rfl
      (@Balanced.group .openBracket .closeBracket [] [] rfl .nil .nil)
  have hclosed : ∃ front eof, closed.ahead = front ++ [eof] ∧ eof.kind = .endOfFile :=
    ⟨group ++ [token .comma 4], token .endOfFile 5, rfl, rfl⟩
  have hcrossed : ∃ front eof, crossed.ahead = front ++ [eof] ∧ eof.kind = .endOfFile :=
    ⟨crossed.ahead.take 4, token .endOfFile 4, rfl, rfl⟩
  have hunclosed : ∃ front eof, unclosed.ahead = front ++ [eof] ∧ eof.kind = .endOfFile :=
    ⟨unclosed.ahead.take 7, token .endOfFile 7, rfl, rfl⟩
  refine ⟨⟨rfl, hclosed, ?_⟩, ⟨rfl, hcrossed, ?_, by decide⟩, rfl, hunclosed, ?_⟩
  · exact ((skipGroup_eq_iff rfl hclosed).1 _).2 ⟨group, hgroup, rfl, rfl⟩
  · refine ((skipGroup_eq_iff rfl hcrossed).2.2 _).2 (.inl
      ⟨token .openBracket 1, token .closeParen 2, .closeBracket, ?_, rfl, rfl⟩)
    exact ⟨[token .openParen 0, token .openBracket 1], _, rfl,
      @LeavesOpen.outer _ _ [] _ rfl .nil (.last rfl .nil), rfl, by decide⟩
  · refine ((skipGroup_eq_iff rfl hunclosed).2.2 _).2 (.inr ⟨token .openBrace 5, ?_, rfl⟩)
    have hinner : LeavesOpen (token .openBrace 5) [token .openBrace 5, token .comma 6] :=
      .last rfl (.cons rfl rfl (by decide) .nil)
    have hcontent : Balanced (kindsOf (group.map (Token.moved 1))) := hgroup.balanced
    exact ⟨_, token .endOfFile 7, [], rfl, .outer rfl hcontent hinner, rfl⟩

end Stream

end DoubleDispatch
