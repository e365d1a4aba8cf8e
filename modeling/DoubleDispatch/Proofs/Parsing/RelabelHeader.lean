import DoubleDispatch.Proofs.Parsing.Head
import DoubleDispatch.Proofs.Parsing.Relabel

/-!
# Declarations in tokens that are relabelled

One equation for each parser from the sections before a type to the end of its body.
-/

namespace DoubleDispatch

namespace Stream

variable {φ : Relabeling} {source : List Char}

/-! ### Before the name -/

/-- A word is a modifier exactly if it was before. -/
theorem contains_modifierWords_rename (word : String) :
    modifierWords.contains (φ.rename word) = modifierWords.contains word := by
  have hsubset : ∀ word ∈ modifierWords, word ∈ parserWords :=
    fun _ ↦ List.mem_append_right _
  rw [Bool.eq_iff_iff, List.contains_iff_mem, List.contains_iff_mem]
  constructor
  · intro h
    rwa [φ.keeps word (φ.avoids word (hsubset _ h))] at h
  · intro h
    rwa [φ.keeps word (hsubset _ h)]

/-- The modifiers ahead are the same words. -/
theorem readModifiers_relabel (prevEnd : Nat) (ts : List Token) :
    readModifiers (φ.offset prevEnd) (ts.map φ.token) = φ.parsed id (readModifiers prevEnd ts) := by
  fun_induction readModifiers prevEnd ts with
  | case1 prevEnd word span ts hword later ih =>
    show readModifiers _ (⟨.identifier (φ.rename word), φ.span span⟩ :: ts.map φ.token) = _
    have hkept : φ.rename word = word :=
      φ.keeps word (List.mem_append_right _ (List.contains_iff_mem.1 hword))
    rw [hkept, readModifiers, if_pos hword]
    have ih : readModifiers (φ.span span).stop (ts.map φ.token) = _ := ih
    rw [ih]
    rfl
  | case2 prevEnd word span ts hword =>
    show readModifiers _ (⟨.identifier (φ.rename word), φ.span span⟩ :: ts.map φ.token) = _
    rw [readModifiers, contains_modifierWords_rename, if_neg hword]
    rfl
  | case3 prevEnd ts hts =>
    obtain _ | ⟨⟨kind, span⟩, ts⟩ := ts
    · rfl
    · cases kind with
      | identifier word => exact (hts word span ts rfl).elim
      | _ => rfl

/-- A word without a meaning is no keyword. -/
theorem typeKeyword?_eq_none {s : Stream} (h : ∀ word ∈ s.kind.name?, word ∉ parserWords) :
    s.typeKeyword? = none := by
  unfold typeKeyword?
  split <;> first | rfl | (rename_i hword; exact absurd (by decide) (h _ hword))

/-- The keyword of a type is the same, as the words behind `record` have a meaning as well. -/
theorem typeKeyword?_relabel (s : Stream) :
    (φ.stream s).typeKeyword? = s.typeKeyword?.map (φ.parsed id) := by
  have hname : (φ.stream s).kind.name? = s.kind.name?.map φ.rename := by
    rw [Relabeling.kind_stream, Relabeling.name?_kind]
  by_cases hword : ∃ word ∈ s.kind.name?, word ∈ parserWords
  · obtain ⟨word, hkind, hword⟩ := hword
    unfold typeKeyword?
    rw [hname, hkind, Option.map_some, φ.keeps word hword, Relabeling.secondKind_stream,
      Relabeling.name?_kind, Relabeling.advance_stream, Relabeling.advance_stream]
    split
    · rfl
    · rfl
    · rfl
    · rfl
    · cases s.secondKind.name? with
      | none => rfl
      | some second =>
        dsimp only [Option.map_some]
        split
        next heq =>
          obtain rfl := (Relabeling.rename_eq_iff (by decide)).1 (Option.some.inj heq)
          rfl
        next heq =>
          obtain rfl := (Relabeling.rename_eq_iff (by decide)).1 (Option.some.inj heq)
          rfl
        next renamed hstruct hclass heq =>
          obtain rfl : φ.rename second = renamed := Option.some.inj heq
          split
          next heq =>
            obtain rfl : second = "struct" := Option.some.inj heq
            exact (hstruct (φ.keeps _ (by decide))).elim
          next heq =>
            obtain rfl : second = "class" := Option.some.inj heq
            exact (hclass (φ.keeps _ (by decide))).elim
          next => rfl
          next heq => cases heq
        next heq => cases heq
    · rfl
  · have hnot : ∀ word ∈ s.kind.name?, word ∉ parserWords := fun word hmem h ↦
      hword ⟨word, hmem, h⟩
    rw [typeKeyword?_eq_none hnot, typeKeyword?_eq_none]
    · rfl
    · rw [hname]
      intro word hmem h
      obtain ⟨word, hkind, rfl⟩ := Option.map_eq_some_iff.1 hmem
      exact hnot word hkind (φ.avoids word h)

/-- **The start of a header is read alike.** -/
theorem headerStart?_relabel (s : Stream) :
    (φ.stream s).headerStart? (φ.before ++ source) =
      (s.headerStart? source).map (φ.parsed (.relabel φ)) := by
  simp only [headerStart?]
  rw [sections?_relabel]
  cases s.sections? source with
  | none => rfl
  | some sections =>
    have hmodifiers := readModifiers_relabel (φ := φ) sections.rest.prevEnd sections.rest.ahead
    dsimp only [Option.map_some, Relabeling.parsed]
    rw [show readModifiers (φ.stream sections.rest).prevEnd (φ.stream sections.rest).ahead = _
      from hmodifiers, Relabeling.parsed_rest, typeKeyword?_relabel]
    cases (readModifiers sections.rest.prevEnd sections.rest.ahead).rest.typeKeyword? <;> rfl

/-! ### Type parameters -/

/-- The recursion over the type parameters. -/
theorem typeParameters_eq (last : Option String) (s : Stream) : typeParameters last s =
    match s.kind with
    | .identifier name => typeParameters (some name) s.advance
    | .openBracket => s.skipGroup >>= typeParameters last
    | .comma =>
      match last with
      | none => .error (s.unexpected .typeParameter)
      | some name => do
        let later ← typeParameters none s.advance
        return ⟨name :: later.value, later.rest⟩
    | .greater =>
      match last with
      | none => .error (s.unexpected .typeParameter)
      | some name => .ok ⟨[name], s.advance⟩
    | _ => .error (s.unexpected .typeParameter) := by
  rw [typeParameters.eq_def last s]
  by_cases hend : s.kind = .endOfFile
  · rw [dif_pos hend, hend]
  · rw [dif_neg hend]
    dsimp only
    cases s.kind with
    | openBracket =>
      dsimp only
      split
      next e he =>
        rw [he]
        rfl
      next next hnext =>
        rw [hnext]
        rfl
    | comma =>
      cases last with
      | none => rfl
      | some name =>
        dsimp only
        cases typeParameters none s.advance <;> rfl
    | _ => rfl

/-- Type parameters are renamed, and the same fault is found. -/
theorem typeParameters_relabel (last : Option String) (s : Stream) :
    typeParameters (last.map φ.rename) (φ.stream s) =
      φ.result (φ.parsed (List.map φ.rename)) (typeParameters last s) := by
  induction hn : s.size using Nat.strongRecOn generalizing last s with
  | ind n ih =>
    subst hn
    have hfail : (φ.stream s).unexpected .typeParameter = φ.error (s.unexpected .typeParameter) :=
      Relabeling.unexpected_stream s .typeParameter
    have hlater (hend : s.kind ≠ .endOfFile) (last : Option String) :=
      ih _ (size_advance_lt hend) last s.advance rfl
    rw [typeParameters_eq _ (φ.stream s), typeParameters_eq last s, Relabeling.kind_stream, hfail,
      Relabeling.advance_stream, skipGroup_relabel]
    cases hkind : s.kind with
    | identifier name => exact hlater (by rw [hkind]; nofun) (some name)
    | openBracket =>
      dsimp only [Relabeling.kind]
      cases hskip : s.skipGroup with
      | error e => rfl
      | ok next => exact ih _ (size_skipGroup_lt hskip) last next rfl
    | comma =>
      cases last with
      | none => rfl
      | some name =>
        refine (congrArg (· >>= _) (hlater (by rw [hkind]; nofun) none)).trans
          (Relabeling.result_bind (fun _ ↦ ?_) _)
        rfl
    | greater => cases last <;> rfl
    | _ => rfl

theorem typeParameterList_relabel (s : Stream) :
    (φ.stream s).typeParameterList =
      φ.result (φ.parsed (List.map φ.rename)) s.typeParameterList := by
  rw [typeParameterList, typeParameterList, if_congr (φ.kind_stream_eq_iff s rfl) rfl rfl,
    Relabeling.advance_stream]
  split
  · exact typeParameters_relabel none s.advance
  · rfl

theorem skipParameters_relabel (s : Stream) :
    (φ.stream s).skipParameters = φ.result φ.stream s.skipParameters := by
  rw [skipParameters, skipParameters, if_congr (φ.kind_stream_eq_iff s rfl) rfl rfl,
    skipGroup_relabel]
  split <;> rfl

/-! ### Base lists -/

def EntryState.relabel (φ : Relabeling) (st : EntryState) : EntryState :=
  ⟨st.textEnd.map φ.offset, st.angles, st.started⟩

/-- A base entry ends at the same token. -/
theorem endsAt_relabel (st : EntryState) (kind : TokenKind) :
    (st.relabel φ).endsAt (φ.kind kind) = st.endsAt kind := by
  rw [EntryState.endsAt, EntryState.endsAt, Relabeling.beq_kind rfl, Relabeling.beq_kind rfl,
    Relabeling.beq_kind rfl, Relabeling.isWord_kind (by decide)]
  rfl

/-- The recursion over the tokens of an entry. -/
theorem readEntry_eq (st : EntryState) (s : Stream) : readEntry st s =
    match s.kind with
    | .endOfFile => .ok ⟨st, s⟩
    | .less => readEntry ⟨st.textEnd, st.angles + 1, true⟩ s.advance
    | .greater => readEntry ⟨st.textEnd, st.angles - 1, true⟩ s.advance
    | .openParen => s.skipGroup >>= readEntry
        ⟨if st.angles = 0 then st.textEnd <|> some s.prevEnd else st.textEnd, st.angles, true⟩
    | .openBracket => s.skipGroup >>= readEntry ⟨st.textEnd, st.angles, true⟩
    | kind =>
      if st.endsAt kind then .ok ⟨st, s⟩
      else readEntry ⟨st.textEnd, st.angles, true⟩ s.advance := by
  rw [readEntry.eq_def st s]
  by_cases hend : s.kind = .endOfFile
  · rw [dif_pos hend, hend]
  · rw [dif_neg hend]
    dsimp only
    cases hkind : s.kind with
    | endOfFile => exact absurd hkind hend
    | openParen =>
      dsimp only
      split
      next e he =>
        rw [he]
        rfl
      next next hnext =>
        rw [hnext]
        rfl
    | openBracket =>
      dsimp only
      split
      next e he =>
        rw [he]
        rfl
      next next hnext =>
        rw [hnext]
        rfl
    | _ => rfl

/-- A base entry is read as far as before. -/
theorem readEntry_relabel (st : EntryState) (s : Stream) :
    readEntry (st.relabel φ) (φ.stream s) =
      φ.result (φ.parsed (EntryState.relabel φ)) (readEntry st s) := by
  induction hn : s.size using Nat.strongRecOn generalizing st s with
  | ind n ih =>
    subst hn
    have hnext (hend : s.kind ≠ .endOfFile) (st : EntryState) :=
      ih _ (size_advance_lt hend) st s.advance rfl
    have hgroup (st : EntryState) : (φ.result φ.stream s.skipGroup >>= readEntry (st.relabel φ)) =
        φ.result (φ.parsed (EntryState.relabel φ)) (s.skipGroup >>= readEntry st) := by
      cases hskip : s.skipGroup with
      | error e => rfl
      | ok next => exact ih _ (size_skipGroup_lt hskip) st next rfl
    have hpart (hend : s.kind ≠ .endOfFile) :
        (if (st.relabel φ).endsAt (φ.kind s.kind) then .ok ⟨st.relabel φ, φ.stream s⟩
          else readEntry ⟨st.textEnd.map φ.offset, st.angles, true⟩ (φ.stream s.advance)) =
        φ.result (φ.parsed (EntryState.relabel φ)) (if st.endsAt s.kind then .ok ⟨st, s⟩
          else readEntry ⟨st.textEnd, st.angles, true⟩ s.advance) := by
      rw [endsAt_relabel]
      split
      · rfl
      · exact hnext hend ⟨st.textEnd, st.angles, true⟩
    rw [readEntry_eq _ (φ.stream s), readEntry_eq st s, Relabeling.kind_stream,
      Relabeling.advance_stream, skipGroup_relabel]
    cases hkind : s.kind with
    | endOfFile => rfl
    | less => exact hnext (by rw [hkind]; nofun) ⟨st.textEnd, st.angles + 1, true⟩
    | greater => exact hnext (by rw [hkind]; nofun) ⟨st.textEnd, st.angles - 1, true⟩
    | openParen =>
      refine Eq.trans (congrArg (fun textEnd ↦ φ.result φ.stream s.skipGroup >>=
        readEntry ⟨textEnd, st.angles, true⟩) ?_) (hgroup ⟨if st.angles = 0 then
          st.textEnd <|> some s.prevEnd else st.textEnd, st.angles, true⟩)
      rw [apply_ite (Option.map φ.offset)]
      dsimp only [EntryState.relabel]
      cases st.textEnd <;> rfl
    | openBracket => exact hgroup ⟨st.textEnd, st.angles, true⟩
    | _ =>
      rw [hkind] at hpart
      exact hpart nofun

/-- The text of a base entry is the same, and so is whether it runs backwards. -/
theorem cutEntry_relabel (s : Stream) (entry : Parsed EntryState) :
    cutEntry (φ.before ++ source) (φ.stream s) (φ.parsed (EntryState.relabel φ) entry) =
      φ.result (φ.parsed (.relabel φ)) (cutEntry source s entry) := by
  have hstop : (entry.value.relabel φ).textEnd.getD (φ.stream entry.rest).prevEnd =
      φ.offset (entry.value.textEnd.getD entry.rest.prevEnd) :=
    Option.getD_map φ.offset entry.rest.prevEnd entry.value.textEnd
  have hlt (m n : Nat) : φ.offset m < φ.offset n ↔ m < n := Nat.add_lt_add_iff_right
  have hstarted : (entry.value.relabel φ).started = entry.value.started := rfl
  simp only [cutEntry, Relabeling.parsed_value, Relabeling.parsed_rest, hstop, hstarted,
    Relabeling.start_stream, slice_relabel, hlt]
  split
  · exact congrArg Except.error (Relabeling.unexpected_stream entry.rest .baseType)
  · split <;> rfl

theorem baseEntry_relabel (s : Stream) :
    baseEntry (φ.before ++ source) (φ.stream s) =
      φ.result (φ.parsed (.relabel φ)) (baseEntry source s) :=
  (congrArg (· >>= _) (readEntry_relabel ⟨none, 0, false⟩ s)).trans
    (Relabeling.result_bind (cutEntry_relabel s) _)

/-- **Base entries are read alike**, by induction on the number of tokens ahead. -/
theorem baseEntries_relabel (s : Stream) :
    baseEntries (φ.before ++ source) (φ.stream s) =
      φ.result (φ.parsed (List.map (.relabel φ))) (baseEntries source s) := by
  induction hn : s.size using Nat.strongRecOn generalizing s with
  | ind n ih =>
    subst hn
    rw [baseEntries_eq (φ.stream s), baseEntries_eq s, baseEntry_relabel]
    cases hbase : baseEntry source s with
    | error e => rfl
    | ok base =>
      show (if (φ.stream base.rest).kind = .comma then _ else _) = φ.result _ (if _ then _ else _)
      rw [if_congr (φ.kind_stream_eq_iff base.rest rfl) rfl rfl]
      split
      next hcomma =>
        have hlt := size_advance_lt (s := base.rest) (by rw [hcomma]; nofun)
        have hlater := ih _ (Nat.lt_of_lt_of_le hlt (size_baseEntry_le hbase)) _ rfl
        rw [Relabeling.parsed_rest, Relabeling.advance_stream, hlater]
        refine Relabeling.result_bind (fun _ ↦ ?_) _
        rfl
      next => rfl

/-- A base list is read alike. -/
theorem baseList_relabel (s : Stream) :
    (φ.stream s).baseList (φ.before ++ source) =
      φ.result (φ.parsed (List.map (.relabel φ))) (s.baseList source) := by
  rw [baseList, baseList, if_congr (φ.kind_stream_eq_iff s rfl) rfl rfl,
    Relabeling.advance_stream, baseEntries_relabel]
  split <;> rfl

/-! ### Constraints and body -/

/-- The recursion over the tokens of the constraint clauses. -/
theorem skipConstraints_eq (s : Stream) : s.skipConstraints =
    match s.kind with
    | .endOfFile | .openBrace | .semicolon => .ok s
    | .openParen | .openBracket => s.skipGroup >>= skipConstraints
    | _ => s.advance.skipConstraints := by
  rw [skipConstraints.eq_def s]
  by_cases hend : s.kind = .endOfFile
  · rw [dif_pos hend, hend]
  · rw [dif_neg hend]
    dsimp only
    cases hkind : s.kind with
    | endOfFile => exact absurd hkind hend
    | openParen =>
      dsimp only
      split
      next e he =>
        rw [he]
        rfl
      next next hnext =>
        rw [hnext]
        rfl
    | openBracket =>
      dsimp only
      split
      next e he =>
        rw [he]
        rfl
      next next hnext =>
        rw [hnext]
        rfl
    | _ => rfl

/-- Constraint clauses are skipped up to the same token. -/
theorem skipConstraints_relabel (s : Stream) :
    (φ.stream s).skipConstraints = φ.result φ.stream s.skipConstraints := by
  induction hn : s.size using Nat.strongRecOn generalizing s with
  | ind n ih =>
    subst hn
    have hgroup : (φ.result φ.stream s.skipGroup >>= skipConstraints) =
        φ.result φ.stream (s.skipGroup >>= skipConstraints) := by
      cases hskip : s.skipGroup with
      | error e => rfl
      | ok next => exact ih _ (size_skipGroup_lt hskip) next rfl
    have hnext (hend : s.kind ≠ .endOfFile) := ih _ (size_advance_lt hend) s.advance rfl
    rw [skipConstraints_eq (φ.stream s), skipConstraints_eq s, Relabeling.kind_stream,
      Relabeling.advance_stream, skipGroup_relabel]
    cases hkind : s.kind with
    | endOfFile => rfl
    | openBrace => rfl
    | semicolon => rfl
    | openParen => exact hgroup
    | openBracket => exact hgroup
    | _ =>
      rw [hkind] at hnext
      exact hnext nofun

theorem constraints_relabel (s : Stream) :
    (φ.stream s).constraints = φ.result φ.stream s.constraints := by
  rw [constraints, constraints, Relabeling.isWord_stream s (by decide), Relabeling.advance_stream,
    skipConstraints_relabel]
  split <;> rfl

/-- A body is skipped up to the same token, and a fault in its place has the renamed type. -/
theorem typeBody_relabel (name : String) (s : Stream) :
    (φ.stream s).typeBody (φ.rename name) = φ.result φ.stream (s.typeBody name) := by
  rw [typeBody, typeBody, Relabeling.kind_stream, skipGroup_relabel, Relabeling.advance_stream,
    show (φ.stream s).unexpected (.typeBody (φ.rename name)) = _
      from Relabeling.unexpected_stream s (.typeBody name)]
  cases s.kind with
  | openBrace =>
    dsimp only [Relabeling.kind]
    cases s.skipGroup with
    | error e => rfl
    | ok next => exact congrArg Except.ok (Relabeling.eat_stream next (Relabeling.kind_eq_iff rfl))
  | _ => rfl

/-! ### Declarations -/

/-- What stands behind the keyword of a type is read alike. -/
theorem declarator_relabel (ordinal start : Nat) (header : HeaderStart) (s : Stream) :
    declarator (φ.before ++ source) (ordinal + φ.ordinals) (φ.offset start) (header.relabel φ)
        (φ.stream s) =
      φ.result (φ.parsed (.relabel φ)) (declarator source ordinal start header s) := by
  rw [declarator, declarator, Relabeling.kind_stream, Relabeling.name?_kind]
  cases s.kind.name? with
  | none => exact congrArg Except.error (Relabeling.unexpected_stream s (.typeName header.kind))
  | some name =>
    dsimp only [Option.map_some]
    rw [Relabeling.advance_stream, typeParameterList_relabel]
    refine Relabeling.result_bind (fun parameters ↦ ?_) _
    rw [Relabeling.parsed_rest, skipParameters_relabel]
    refine Relabeling.result_bind (fun next ↦ ?_) _
    rw [baseList_relabel]
    refine Relabeling.result_bind (fun bases ↦ ?_) _
    rw [Relabeling.parsed_rest, constraints_relabel]
    refine Relabeling.result_bind (fun mark ↦ ?_) _
    rw [typeBody_relabel]
    refine Relabeling.result_bind (fun last ↦ ?_) _
    rw [Relabeling.span_stream]
    rfl

/-- **A declaration is read alike**, found or not. -/
theorem typeDeclaration?_relabel (ordinal : Nat) (s : Stream) :
    (φ.stream s).typeDeclaration? (φ.before ++ source) (ordinal + φ.ordinals) =
      φ.result (Option.map (φ.parsed (.relabel φ))) (s.typeDeclaration? source ordinal) := by
  rw [typeDeclaration?, typeDeclaration?, headerStart?_relabel, Relabeling.start_stream]
  cases s.headerStart? source with
  | none => rfl
  | some header =>
    dsimp only [Option.map_some, Relabeling.parsed_value, Relabeling.parsed_rest]
    rw [declarator_relabel]
    cases declarator source ordinal s.start header.value header.rest <;> rfl

end Stream

end DoubleDispatch
