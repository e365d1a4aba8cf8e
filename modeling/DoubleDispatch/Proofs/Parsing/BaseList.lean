import DoubleDispatch.Proofs.Parsing.Header

/-!
# Base lists

The entries of a base list are cut out of the source, each from the start of its first token to the
end of its text. Which of these slices run backwards is decided by that first token
alone. If it is a parenthesis, the text ends before it, where the mark before the entry ended
(`readEntry_openParen`); otherwise the text ends behind it (`readEntry_fits`). So exactly those
entries have no text that open with a parenthesis behind a gap (`OpensBehindGap`), and a base list
that comes to one (`EntryMark`) ends there (`OpensBehindGap.baseEntries_eq`), while any other gives
what a parser may give (`yields_baseEntries`).
-/

namespace DoubleDispatch

namespace Stream

variable {source : List Char}

/-! ### Reading an entry -/

section Equations

variable {st : EntryState} {s : Stream}

theorem readEntry_less (hkind : s.kind = .less) :
    readEntry st s = readEntry ⟨st.textEnd, st.angles + 1, true⟩ s.advance := by
  rw [readEntry.eq_def st s, dif_neg (by rw [hkind]; nofun)]
  simp only [hkind]

theorem readEntry_greater (hkind : s.kind = .greater) :
    readEntry st s = readEntry ⟨st.textEnd, st.angles - 1, true⟩ s.advance := by
  rw [readEntry.eq_def st s, dif_neg (by rw [hkind]; nofun)]
  simp only [hkind]

/-- A group of parentheses outside of angles ends the text of the entry and is stepped over. -/
theorem readEntry_openParen_eq {next : Stream} (hkind : s.kind = .openParen)
    (hskip : s.skipGroup = .ok next) :
    readEntry st s = readEntry
      ⟨if st.angles = 0 then st.textEnd <|> some s.prevEnd else st.textEnd, st.angles, true⟩
      next := by
  rw [readEntry.eq_def st s, dif_neg (by rw [hkind]; nofun)]
  simp only [hkind]
  split
  next e he =>
    rw [hskip] at he
    cases he
  next next' hnext =>
    rw [hskip] at hnext
    cases hnext
    rfl

theorem readEntry_openBracket {next : Stream} (hkind : s.kind = .openBracket)
    (hskip : s.skipGroup = .ok next) :
    readEntry st s = readEntry { st with started := true } next := by
  rw [readEntry.eq_def st s, dif_neg (by rw [hkind]; nofun)]
  simp only [hkind]
  split
  next e he =>
    rw [hskip] at he
    cases he
  next next' hnext =>
    rw [hskip] at hnext
    cases hnext
    rfl

/-- A token that no group opens with and no angle bracket is. -/
def IsEntryPart (kind : TokenKind) : Prop :=
  kind ≠ .endOfFile ∧ kind ≠ .less ∧ kind ≠ .greater ∧ kind ≠ .openParen ∧ kind ≠ .openBracket

/-- A token that may stand in an entry ends it or is stepped over, as the state says. -/
theorem readEntry_of_isEntryPart (hkind : IsEntryPart s.kind) : readEntry st s =
    if st.endsAt s.kind then .ok ⟨st, s⟩
    else readEntry { st with started := true } s.advance := by
  obtain ⟨hend, hless, hgreater, hparen, hbracket⟩ := hkind
  rw [readEntry.eq_def st s, dif_neg hend]
  split
  next h => exact absurd h hless
  next h => exact absurd h hgreater
  next h => exact absurd h hparen
  next h => exact absurd h hbracket
  next => rfl

theorem readEntry_part (hkind : IsEntryPart s.kind) (hends : st.endsAt s.kind = false) :
    readEntry st s = readEntry { st with started := true } s.advance := by
  rw [readEntry_of_isEntryPart hkind, if_neg (Bool.eq_false_iff.1 hends)]

theorem readEntry_end (hkind : IsEntryPart s.kind) (hends : st.endsAt s.kind = true) :
    readEntry st s = .ok ⟨st, s⟩ := by
  rw [readEntry_of_isEntryPart hkind, if_pos hends]

end Equations

/-- How an entry that is read to its end goes on from a state and a stream: tokens lead to its end,
what was started stays so, and the text ends where the state says, or else where it ends behind one
of the tokens ahead, if it ends before the entry at all. -/
structure ReadsOn (st : EntryState) (s : Stream) (entry : Parsed EntryState) : Prop where
  leadsTo : s.LeadsTo entry.rest
  started : st.started = true → entry.value.started = true
  textEnd_eq : ∀ n, st.textEnd = some n → entry.value.textEnd = some n
  textEnd : st.textEnd = none →
    entry.value.textEnd = none ∨ ∃ t, s.LeadsTo t ∧ entry.value.textEnd = some t.prevEnd

namespace ReadsOn

theorem refl (st : EntryState) (s : Stream) : ReadsOn st s ⟨st, s⟩ where
  leadsTo := .refl
  started := id
  textEnd_eq := fun _ ↦ id
  textEnd := .inl

/-- Tokens are taken that do not end the text. -/
theorem step {st st' : EntryState} {s t : Stream} {entry : Parsed EntryState}
    (h : ReadsOn st' t entry) (hst : s.LeadsTo t) (hend : st'.textEnd = st.textEnd)
    (hstarted : st'.started = true) : ReadsOn st s entry where
  leadsTo := hst.trans h.leadsTo
  started := fun _ ↦ h.started hstarted
  textEnd_eq := fun n hn ↦ h.textEnd_eq n (hend.trans hn)
  textEnd := fun hn ↦ by
    rcases h.textEnd (hend.trans hn) with hnone | ⟨u, hu, hsome⟩
    · exact .inl hnone
    · exact .inr ⟨u, hst.trans hu, hsome⟩

/-- The arguments of a base constructor end the text, if it has not ended before. -/
theorem arguments {st : EntryState} {s t : Stream} {entry : Parsed EntryState}
    {angles : Nat} (h : ReadsOn ⟨st.textEnd <|> some s.prevEnd, angles, true⟩ t entry)
    (hst : s.LeadsTo t) : ReadsOn st s entry where
  leadsTo := hst.trans h.leadsTo
  started := fun _ ↦ h.started rfl
  textEnd_eq := fun n hn ↦ h.textEnd_eq n (by simp [hn])
  textEnd := fun hn ↦ .inr ⟨s, .refl, h.textEnd_eq _ (by simp [hn])⟩

end ReadsOn

/-- What an entry read from within the source takes, and where its text ends. -/
theorem readsOn_readEntry {st : EntryState} {s : Stream} {entry : Parsed EntryState}
    (hs : s.In source) (h : readEntry st s = .ok entry) : ReadsOn st s entry := by
  fun_induction readEntry st s with
  | case1 => cases h; exact .refl _ _
  | case2 _ s _ _ _ ih => exact (ih hs.advance h).step (.step s) rfl rfl
  | case3 _ s _ _ _ ih => exact (ih hs.advance h).step (.step s) rfl rfl
  | case4 => cases h
  | case5 st s _ _ _ next hnext _ textEnd ih =>
    have hleads := leadsTo_skipGroup hs hnext
    have hreads := ih (hleads.in hs) h
    -- Parentheses within angle brackets belong to a type argument and do not end the text.
    by_cases hangles : st.angles = 0
    · rw [show textEnd = (st.textEnd <|> some s.prevEnd) from if_pos hangles] at hreads
      exact hreads.arguments hleads
    · rw [show textEnd = st.textEnd from if_neg hangles] at hreads
      exact hreads.step hleads rfl rfl
  | case6 => cases h
  | case7 _ s _ _ _ next hnext _ ih =>
    have hleads := leadsTo_skipGroup hs hnext
    exact (ih (hleads.in hs) h).step hleads rfl rfl
  | case8 => cases h; exact .refl _ _
  | case9 _ s _ _ _ _ _ _ _ ih => exact (ih hs.advance h).step (.step s) rfl rfl

/-- An entry is read or refused at a token of the source, and never panics. -/
theorem yields_readEntry (st : EntryState) {s : Stream} (hs : s.In source) :
    Yields source s False (·.rest) (readEntry st s) := by
  have hgroup {s : Stream} {e : ParseError} (hs : s.In source) (he : s.skipGroup = .error e) :
      Yields source s False (·.rest) (.error e : Except ParseError (Parsed EntryState)) := by
    have hyields := yields_skipGroup hs
    rw [he] at hyields
    exact hyields.error
  fun_induction readEntry st s with
  | case1 => exact LeadsTo.refl
  | case2 _ s _ _ _ ih => exact (ih hs.advance).of_leadsTo (.step s)
  | case3 _ s _ _ _ ih => exact (ih hs.advance).of_leadsTo (.step s)
  | case4 st s _ _ _ e he => exact hgroup hs he
  | case5 st s _ _ _ next hnext _ textEnd ih =>
    have hleads := leadsTo_skipGroup hs hnext
    exact (ih (hleads.in hs)).of_leadsTo hleads
  | case6 st s _ _ _ e he => exact hgroup hs he
  | case7 _ s _ _ _ next hnext _ ih =>
    have hleads := leadsTo_skipGroup hs hnext
    exact (ih (hleads.in hs)).of_leadsTo hleads
  | case8 => exact LeadsTo.refl
  | case9 _ s _ _ _ _ _ _ _ ih => exact (ih hs.advance).of_leadsTo (.step s)

/-- An entry that opens with a parenthesis has its text end before it. -/
theorem readEntry_openParen {s : Stream} {entry : Parsed EntryState} (hs : s.In source)
    (hk : s.kind = .openParen) (h : readEntry ⟨none, 0, false⟩ s = .ok entry) :
    entry.value.started = true ∧ entry.value.textEnd = some s.prevEnd := by
  rw [readEntry, dif_neg (by rw [hk]; nofun)] at h
  split at h
  next hk' => rw [hk] at hk'; cases hk'
  next hk' => rw [hk] at hk'; cases hk'
  next =>
    split at h
    · cases h
    next next hnext =>
      have hreads := readsOn_readEntry ((leadsTo_skipGroup hs hnext).in hs) h
      exact ⟨hreads.started rfl, hreads.textEnd_eq _ rfl⟩
  next hk' => rw [hk] at hk'; cases hk'
  next hparen _ => exact absurd hk hparen

/-- The text of any other entry ends behind its first token. -/
theorem readEntry_fits {s : Stream} {entry : Parsed EntryState} (hs : s.In source)
    (hparen : s.kind ≠ .openParen) (h : readEntry ⟨none, 0, false⟩ s = .ok entry)
    (hstarted : entry.value.started = true) :
    Span.Fits source ⟨s.start, entry.value.textEnd.getD entry.rest.prevEnd⟩ := by
  by_cases hend : s.kind = .endOfFile
  · rw [readEntry, dif_pos hend] at h
    cases h
    cases hstarted
  -- Whatever follows the first token, the text ends where a token ended that was taken.
  have hbehind {st : EntryState} {next : Stream} (hnext : s.advance.LeadsTo next)
      (hnone : st.textEnd = none) (hreads : ReadsOn st next entry) :
      Span.Fits source ⟨s.start, entry.value.textEnd.getD entry.rest.prevEnd⟩ := by
    have hfits {t : Stream} (ht : next.LeadsTo t) : Span.Fits source ⟨s.start, t.prevEnd⟩ := by
      have hleads := hnext.trans ht
      refine ⟨hleads.start_le_prevEnd hs hend, hs.span_fits.start, ?_⟩
      exact (hleads.in hs.advance).prevEnd
    rcases hreads.textEnd hnone with htext | ⟨t, ht, htext⟩
    · rw [htext]
      exact hfits hreads.leadsTo
    · rw [htext]
      exact hfits ht
  rw [readEntry, dif_neg hend] at h
  split at h
  next => exact hbehind .refl rfl (readsOn_readEntry hs.advance h)
  next => exact hbehind .refl rfl (readsOn_readEntry hs.advance h)
  next hk => exact absurd hk hparen
  next =>
    split at h
    · cases h
    next next hnext =>
      exact hbehind (advance_leadsTo_skipGroup hs hnext) rfl
        (readsOn_readEntry ((leadsTo_skipGroup hs hnext).in hs) h)
  next =>
    split at h
    · cases h
      cases hstarted
    · exact hbehind .refl rfl (readsOn_readEntry hs.advance h)

/-! ### One entry -/

/-- The entry of a base list that starts at a stream and was read to its end. -/
def cutEntry (source : List Char) (s : Stream) (entry : Parsed EntryState) :
    Except ParseError (Parsed BaseEntry) :=
  let span : Span := ⟨s.start, entry.value.textEnd.getD entry.rest.prevEnd⟩
  if !entry.value.started then .error (entry.rest.unexpected .baseType)
  else if span.stop < span.start then .error (.backwardEntry span)
  else .ok ⟨⟨String.ofList (Text.trim (Text.slice span.start span.stop source)), span⟩, entry.rest⟩

/-- One entry of a base list. -/
def baseEntry (source : List Char) (s : Stream) : Except ParseError (Parsed BaseEntry) :=
  readEntry ⟨none, 0, false⟩ s >>= cutEntry source s

/-- The entries of a base list are read one after the other, as long as a comma follows. -/
theorem baseEntries_eq (s : Stream) :
    baseEntries source s = (do
      let base ← baseEntry source s
      if base.rest.kind = .comma then
        let later ← baseEntries source base.rest.advance
        return ⟨base.value :: later.value, later.rest⟩
      else return ⟨[base.value], base.rest⟩) := by
  rw [baseEntries]
  split
  next e he =>
    have hbase : baseEntry source s = .error e := by
      rw [baseEntry, he]
      rfl
    rw [hbase]
    rfl
  next entry he =>
    have hbase : baseEntry source s = cutEntry source s entry := by
      rw [baseEntry, he]
      rfl
    rw [hbase, cutEntry]
    dsimp only
    split
    · rfl
    · split
      · rfl
      · show _ = if entry.rest.kind = .comma then _ else _
        split
        · cases baseEntries source entry.rest.advance <;> rfl
        · rfl

/-- A mark before an entry of a base list: the entry that opens behind it is read to its end, its
first token is a parenthesis, and between the two is a gap. -/
structure OpensBehindGap (mark : Stream) : Prop where
  finishes : ∃ entry, readEntry ⟨none, 0, false⟩ mark.advance = .ok entry
  paren : mark.advance.kind = .openParen
  gap : mark.span.stop < mark.advance.start

section Marks

variable {mark : Stream}

/-- **The text of an entry fits the source**, unless the entry opens behind a gap. -/
theorem cutEntry_fits {entry : Parsed EntryState} (hs : mark.In source)
    (hmark : mark.kind ≠ .endOfFile) (h : readEntry ⟨none, 0, false⟩ mark.advance = .ok entry)
    (hstarted : entry.value.started = true) (hgap : ¬OpensBehindGap mark) :
    Span.Fits source ⟨mark.advance.start, entry.value.textEnd.getD entry.rest.prevEnd⟩ := by
  by_cases hparen : mark.advance.kind = .openParen
  · obtain ⟨-, htext⟩ := readEntry_openParen hs.advance hparen h
    have hle : mark.advance.start ≤ mark.advance.prevEnd := by
      rw [prevEnd_advance hmark]
      exact Nat.le_of_not_lt fun hlt ↦ hgap ⟨⟨entry, h⟩, hparen, hlt⟩
    rw [htext]
    exact ⟨hle, hs.advance.span_fits.start, hs.advance.prevEnd⟩
  · exact readEntry_fits hs.advance hparen h hstarted

/-- A base entry panics only where its mark opens behind a gap. -/
theorem yields_baseEntry (hs : mark.In source) (hmark : mark.kind ≠ .endOfFile) :
    Yields source mark.advance (OpensBehindGap mark) (·.rest) (baseEntry source mark.advance) := by
  refine ((yields_readEntry _ hs.advance).imp False.elim).bind fun entry hentry hleads ↦ ?_
  simp only [cutEntry]
  split
  · exact .unexpected (hleads.in hs.advance) _
  next hstarted =>
    split
    next hlt =>
      refine Classical.byContradiction fun hgap ↦ ?_
      have hfits := cutEntry_fits hs hmark hentry (by simpa using hstarted) hgap
      exact absurd hfits.le (Nat.not_le.2 hlt)
    · exact LeadsTo.refl

/-- An entry that opens behind a gap runs backwards. -/
theorem OpensBehindGap.baseEntry_eq (h : OpensBehindGap mark) (hs : mark.In source)
    (hmark : mark.kind ≠ .endOfFile) :
    ∃ span, baseEntry source mark.advance = .error (.backwardEntry span) := by
  obtain ⟨⟨entry, hentry⟩, hparen, hgap⟩ := h
  obtain ⟨hstarted, htext⟩ := readEntry_openParen hs.advance hparen hentry
  rw [← prevEnd_advance hmark] at hgap
  refine ⟨⟨mark.advance.start, mark.advance.prevEnd⟩, ?_⟩
  rw [baseEntry, hentry]
  show cutEntry source mark.advance entry = _
  simp only [cutEntry, hstarted, htext, Option.getD_some, Bool.not_true, Bool.false_eq_true,
    if_false, if_pos hgap]

end Marks

/-! ### All entries -/

/-- A base list with a first mark comes to a further mark: all entries in between are read and cut
out of the source. -/
inductive EntryMark (source : List Char) : Stream → Stream → Prop
  | first {mark : Stream} : EntryMark source mark mark
  | later {mark last : Stream} {base : Parsed BaseEntry}
      (entry : baseEntry source mark.advance = .ok base) (comma : base.rest.kind = .comma)
      (h : EntryMark source base.rest last) :
    EntryMark source mark last

/-- A base entry that is read leads forward. -/
theorem leadsTo_baseEntry {mark : Stream} {base : Parsed BaseEntry} (hs : mark.In source)
    (hmark : mark.kind ≠ .endOfFile) (h : baseEntry source mark.advance = .ok base) :
    mark.advance.LeadsTo base.rest :=
  (yields_baseEntry hs hmark).leadsTo h

theorem size_baseEntry_le {s : Stream} {base : Parsed BaseEntry}
    (h : baseEntry source s = .ok base) : base.rest.size ≤ s.size := by
  obtain ⟨entry, hentry, h⟩ := exists_of_bind_eq_ok h
  simp only [cutEntry] at h
  split at h
  · cases h
  · split at h
    · cases h
    · cases h
      exact size_readEntry_le hentry

/-- **What a base list gives**: entries, a fault, or an end at an entry that opens behind a gap. -/
theorem yields_baseEntries {mark : Stream} (hs : mark.In source) (hmark : mark.kind ≠ .endOfFile) :
    Yields source mark.advance (∃ last, EntryMark source mark last ∧ OpensBehindGap last) (·.rest)
      (baseEntries source mark.advance) := by
  induction hn : mark.size using Nat.strongRecOn generalizing mark with
  | ind n ih =>
    rw [baseEntries_eq]
    refine ((yields_baseEntry hs hmark).imp fun h ↦ ⟨mark, .first, h⟩).bind
      fun base hbase hleads ↦ ?_
    have hrest := hleads.in hs.advance
    split
    next hcomma =>
      have hne : base.rest.kind ≠ .endOfFile := by rw [hcomma]; nofun
      have hlt : base.rest.size < n := by
        rw [← hn]
        exact Nat.lt_of_le_of_lt (size_baseEntry_le hbase) (size_advance_lt hmark)
      have hlater := (ih _ hlt hrest hne rfl).of_leadsTo (.step base.rest)
      refine (hlater.imp ?_).bind fun _ _ _ ↦ LeadsTo.refl
      rintro ⟨last, hlast, hgap⟩
      exact ⟨last, .later hbase hcomma hlast, hgap⟩
    · exact LeadsTo.refl

/-- A base list ends at an entry that opens behind a gap. -/
theorem OpensBehindGap.baseEntries_eq {mark last : Stream} (h : OpensBehindGap last)
    (hlast : EntryMark source mark last) (hs : mark.In source) (hmark : mark.kind ≠ .endOfFile) :
    ∃ span, baseEntries source mark.advance = .error (.backwardEntry span) := by
  induction hlast with
  | first =>
    obtain ⟨span, hspan⟩ := h.baseEntry_eq hs hmark
    refine ⟨span, ?_⟩
    rw [Stream.baseEntries_eq, hspan]
    rfl
  | later hentry hcomma _ ih =>
    have hrest := (leadsTo_baseEntry hs hmark hentry).in hs.advance
    obtain ⟨span, hspan⟩ := ih h hrest (by rw [hcomma]; nofun)
    refine ⟨span, ?_⟩
    rw [Stream.baseEntries_eq, hentry]
    show (if _ then _ else _) = _
    rw [if_pos hcomma, hspan]
    rfl

end Stream

end DoubleDispatch
