import DoubleDispatch.Proofs.Parsing.Strays

/-!
# What an item takes

Each item of a body that is not skipped ends with a semicolon or a brace (`Stream.TakesItem`). So
from any item of a body to its end there is a passage (`Stream.Reads.exists_passes`).
-/

namespace DoubleDispatch

namespace Stream

variable {source : List Char} {s t : Stream}

/-- An item lies between two streams. -/
def TakesItem (s t : Stream) : Prop :=
  ∃ taken strays, s.ahead = taken ++ t.ahead ∧ Passage strays taken ∧ EndsItem taken

/-- Tokens up to a semicolon or a brace, and that mark, are an item. -/
theorem TakesItem.of_mark {mark : Stream} {strays : List Token} (h : s.Passes mark strays)
    (hmark : mark.kind = .semicolon ∨ mark.kind = .openBrace ∨ mark.kind = .closeBrace) :
    TakesItem s mark.advance := by
  have hend : mark.kind ≠ .endOfFile := by
    rcases hmark with hmark | hmark | hmark <;> (rw [hmark]; nofun)
  obtain ⟨taken, hahead, hpassage⟩ := h
  obtain ⟨last, hlast, hkind, -⟩ := exists_ahead_eq hend
  rw [← hkind] at hmark
  have hone : ∃ strays, Passage strays [last] := by
    rcases hmark with hmark | hmark | hmark
    · exact ⟨[], .plain (by rw [hmark]; decide) .nil⟩
    · exact ⟨[last], .stray (.inr hmark) .nil⟩
    · exact ⟨[last], .stray (.inl (by rw [hmark]; rfl)) .nil⟩
  obtain ⟨strays', hone⟩ := hone
  exact ⟨taken ++ [last], _, by rw [hahead, hlast]; simp, hpassage.append hone, taken, last, rfl,
    hmark⟩

/-- A semicolon behind an item belongs to it. -/
theorem TakesItem.eat_semicolon (h : TakesItem s t) : TakesItem s (t.eat .semicolon) := by
  rw [Stream.eat]
  split
  next hsemicolon =>
    obtain ⟨taken, strays, hahead, hpassage, -⟩ := h
    exact .of_mark ⟨taken, hahead, hpassage⟩ (.inl hsemicolon)
  next => exact h

/-- An item is passed as tokens balanced but for its strays. -/
theorem TakesItem.passes (h : TakesItem s t) : ∃ strays, s.Passes t strays := by
  obtain ⟨taken, strays, hahead, hpassage, -⟩ := h
  exact ⟨strays, taken, hahead, hpassage⟩

theorem takesItem_using {u : Parsed UsingDirective} (h : s.using? source = some u) :
    TakesItem s u.rest := by
  obtain ⟨mark, hpasses, hkind, hrest⟩ := exists_passes_using? h
  rw [hrest]
  exact .of_mark hpasses (.inl hkind)

theorem takesItem_namespaceHeader (word : s.kind.isWord "namespace" = true)
    {header : Parsed (String × Bool)} (h : s.advance.namespaceHeader = .ok header) :
    TakesItem s header.rest := by
  obtain ⟨mark, hpasses, hrest, hkind⟩ := exists_passes_namespaceHeader h
  rw [hrest]
  refine .of_mark ((passes_plain (isPlain_of_isWord word)).and_then hpasses) ?_
  rw [hkind]
  split
  · exact .inl rfl
  · exact .inr (.inl rfl)

/-- A type declaration that is read is an item. -/
theorem takesItem_typeDeclaration? {ordinal : Nat} {d : Parsed TypeDeclaration}
    (h : s.typeDeclaration? source ordinal = .ok (some d)) : TakesItem s d.rest := by
  obtain ⟨taken, strays, hahead, hpassage, hends, -⟩ := exists_passage_of_typeDeclaration? h
  exact ⟨taken, strays, hahead, hpassage, hends⟩

/-- Behind the content of a namespace in braces, the namespace ends like an item. -/
theorem takesItem_behindBody {fileScoped : Bool} (hblock : fileScoped = false)
    {strays : List Token} (h : s.Passes t strays) (hclose : t.kind = .closeBrace) :
    TakesItem s (t.behindBody fileScoped) := by
  rw [hblock, behindBody, if_neg (by decide)]
  exact (TakesItem.of_mark h (.inr (.inr hclose))).eat_semicolon

/-- From the end of the content of a namespace to the end of the namespace. -/
theorem Reads.exists_passes_behindBody {braced fileScoped : Bool} {ordinal : Nat} {content : Body}
    (h : Reads source (braced || !fileScoped) ordinal s content) :
    ∃ strays, content.rest.Passes (content.rest.behindBody fileScoped) strays := by
  cases fileScoped with
  | true => exact ⟨[], .refl _⟩
  | false => exact (takesItem_behindBody rfl (.refl _) (h.kind_rest_of_block rfl)).passes

/-- **A body is passed over** up to its end. -/
theorem Reads.exists_passes {braced : Bool} {ordinal : Nat} {b : Body}
    (h : Reads source braced ordinal s b) : ∃ strays, s.Passes b.rest strays := by
  induction h with
  | done => exact ⟨[], .refl _⟩
  | usingDirective _ found _ ih => exact exists_passes_trans (takesItem_using found).passes ih
  | scope _ _ word found hcontent _ ihcontent ihlater =>
    exact exists_passes_trans (exists_passes_trans (takesItem_namespaceHeader word found).passes
      ihcontent) (exists_passes_trans hcontent.exists_passes_behindBody ihlater)
  | type _ _ _ found _ ih => exact exists_passes_trans (takesItem_typeDeclaration? found).passes ih
  | item goesOn _ _ _ found _ ih =>
    exact exists_passes_trans ⟨[], passes_skipItem goesOn.kind found⟩ ih

end Stream

end DoubleDispatch
