import DoubleDispatch.Parsing
import DoubleDispatch.Proofs.Parsing.Body

/-!
# Parsing as a whole

For every source a parser gives a tree, or a diagnostic that points into the source, or it comes to
a base entry whose text would end before it starts. `SourceTree.parse_total` says when each of these
happens and that nothing else can go wrong on the way: the tokens end with the one end of the file,
so that a parser never looks beyond them, and wherever they lead, what is cut out of the source
there is a slice of it.
-/

namespace DoubleDispatch

open Text (byteLength IsBoundary)

/-- The location of a boundary is the one behind the text before it. -/
theorem Location.ofOffset_of_isBoundary (path source : String) {n : Nat}
    (h : IsBoundary source.toList n) :
    ∃ before behind, source.toList = before ++ behind ∧ byteLength before = n ∧
      Location.ofOffset path source n = .after path before := by
  obtain ⟨before, behind, hs, rfl⟩ := h
  refine ⟨before, behind, hs, rfl, ?_⟩
  rw [ofOffset, hs, Text.takeBytes_append]

namespace Stream

variable {source : List Char} {tokens : List Token}

/-- At the start of a source no token has been taken. -/
theorem In.start (h : TokensFrom source 0 tokens) : In source ⟨tokens, 0⟩ :=
  ⟨.zero source, h⟩

end Stream

theorem SourceFile.parse_of_tokenize {source : String} {tokens : List Token}
    (h : tokenize source = .ok tokens) :
    SourceFile.parse source =
      (fun b ↦ ⟨b.usings, b.members⟩) <$> Stream.bodyOf source.toList false 0 ⟨tokens, 0⟩ := by
  rw [parse, h, Stream.bodyOf]
  dsimp only
  cases Stream.body source.toList false 0 ⟨tokens, 0⟩ <;> rfl

/-- What parsing gives for the text of a file: its declarations, a fault that fits it, or an end at
a base entry that opens behind a gap. -/
theorem SourceFile.parse_spec (source : String) :
    match SourceFile.parse source with
    | .ok _ => True
    | .error (.rejected _ span) => span.Fits source.toList
    | .error (.backwardEntry _) => ∃ tokens last, tokenize source = .ok tokens ∧
        Stream.ComesTo source.toList false 0 ⟨tokens, 0⟩ last ∧ last.OpensBehindGap := by
  have hdivides := divides_tokenize source
  cases htokens : tokenize source with
  | error e =>
    rw [htokens] at hdivides
    rw [parse, htokens]
    exact hdivides
  | ok tokens =>
    rw [htokens] at hdivides
    have hyields := Stream.yields_bodyOf (Stream.In.start hdivides) false 0
    rw [parse_of_tokenize htokens]
    match Stream.bodyOf source.toList false 0 ⟨tokens, 0⟩, hyields with
    | .ok b, _ => trivial
    | .error (.rejected fault span), hfits => exact hfits
    | .error (.backwardEntry span), ⟨last, hlast, hgap⟩ => exact ⟨tokens, last, rfl, hlast, hgap⟩

/-- A diagnostic points into a source: its span fits and ends within the bytes of the source, and
its location is the line and column behind the text before the span. -/
structure Diagnostic.PointsInto (path source : String) (d : Diagnostic) : Prop where
  fits : d.span.Fits source.toList
  stop_le : d.span.stop ≤ source.utf8ByteSize
  located : ∃ before behind, source.toList = before ++ behind ∧
    byteLength before = d.span.start ∧ d.location = .after path before

/-- The tokens of a source: they stand in it, and behind them is the end of the file. -/
def EndOnce (source : String) (tokens : List Token) : Prop :=
  ∃ taken, tokens = taken ++ [⟨.endOfFile, ⟨source.utf8ByteSize, source.utf8ByteSize⟩⟩] ∧
    ∀ t ∈ taken, t.kind ≠ .endOfFile ∧ t.StandsIn source.toList

/-- Nothing that a parser does at a stream can fail: there is a token to look at, and what is cut
out of the source from there is a slice of it, as the text of a type name or as that of a base
entry that does not open behind a gap. -/
structure Stream.IsSafe (source : List Char) (s : Stream) : Prop where
  ahead : s.ahead ≠ []
  typeName : ∀ name, s.typeName? source = some name →
    Span.Fits source ⟨s.start, name.rest.prevEnd⟩
  baseEntry : s.kind = .colon ∨ s.kind = .comma → ¬s.OpensBehindGap →
    ∀ entry, readEntry ⟨none, 0, false⟩ s.advance = .ok entry → entry.value.started = true →
      Span.Fits source ⟨s.advance.start, entry.value.textEnd.getD entry.rest.prevEnd⟩

theorem Stream.In.isSafe {source : List Char} {s : Stream} (h : s.In source) :
    s.IsSafe source where
  ahead := h.ahead.ne_nil
  typeName := fun _ hname ↦ (typeName?_spec h hname).2
  baseEntry := by
    intro hmark hgap entry hentry hstarted
    have hkind : s.kind ≠ .endOfFile := by
      rcases hmark with hmark | hmark
      · rw [hmark]; nofun
      · rw [hmark]; nofun
    exact cutEntry_fits h hkind hentry hstarted hgap

namespace SourceTree

variable {path source : String}

/-- The parser of a source comes to a base entry that it reads to its end and that opens with a
parenthesis behind a gap. -/
def ComesToGap (source : String) : Prop :=
  ∃ tokens last, tokenize source = .ok tokens ∧
    Stream.ComesTo source.toList false 0 ⟨tokens, 0⟩ last ∧ last.OpensBehindGap

/-- What is rejected gives a diagnostic that points into the source. -/
theorem pointsInto_locate {fault : ParseFault} {span : Span} (h : span.Fits source.toList) :
    Diagnostic.PointsInto path source ⟨fault, span, .ofOffset path source span.start⟩ where
  fits := h
  stop_le := by
    rw [← Text.byteLength_toList]
    exact h.stop.le_byteLength
  located := Location.ofOffset_of_isBoundary path source h.start

theorem parse_eq_backwardEntry_of_comesToGap (h : ComesToGap source) :
    ∃ location, parse path source = .error (.backwardEntry location) := by
  obtain ⟨tokens, last, htokens, hlast, hgap⟩ := h
  have hdivides := divides_tokenize source
  rw [htokens] at hdivides
  obtain ⟨span, hspan⟩ := hgap.bodyOf_eq hlast (Stream.In.start hdivides)
  have hparse : SourceFile.parse source = .error (.backwardEntry span) := by
    rw [SourceFile.parse_of_tokenize htokens, hspan]
    rfl
  refine ⟨.ofOffset path source span.start, ?_⟩
  rw [parse, hparse]
  rfl

/-- **Parsing is total up to one panic.** It gives a tree, or a diagnostic that points into the
source, or the text of a base entry runs backwards, and this happens exactly if the parser comes to
an entry that opens with a parenthesis behind a gap. Nothing else can fail on the way: the tokens
end with the one end of the file, the names of identifiers are slices of the source, and wherever
the tokens lead, a parser is safe. -/
theorem parse_total (path source : String) :
    ((∃ tree, parse path source = .ok tree) ∨
      (∃ d, parse path source = .error (.diagnostic d) ∧ d.PointsInto path source) ∨
      ∃ location, parse path source = .error (.backwardEntry location)) ∧
    ((∃ location, parse path source = .error (.backwardEntry location)) ↔ ComesToGap source) ∧
    ∀ tokens, tokenize source = .ok tokens →
      EndOnce source tokens ∧
        ∀ s, Stream.LeadsTo ⟨tokens, 0⟩ s → s.IsSafe source.toList := by
  have hspec := SourceFile.parse_spec source
  refine ⟨?_, ⟨?_, parse_eq_backwardEntry_of_comesToGap⟩, fun tokens htokens ↦ ?_⟩
  · rw [parse]
    match hparse : SourceFile.parse source with
    | .ok file => exact .inl ⟨_, rfl⟩
    | .error (.rejected fault span) =>
      rw [hparse] at hspec
      exact .inr (.inl ⟨_, rfl, pointsInto_locate hspec⟩)
    | .error (.backwardEntry span) => exact .inr (.inr ⟨_, rfl⟩)
  · rintro ⟨location, h⟩
    match hparse : SourceFile.parse source with
    | .ok file => rw [parse, hparse] at h; cases h
    | .error (.rejected fault span) => rw [parse, hparse] at h; cases h
    | .error (.backwardEntry span) =>
      rw [hparse] at hspec
      exact hspec
  · have hdivides := divides_tokenize source
    rw [htokens] at hdivides
    refine ⟨?_, fun s hleads ↦ (hleads.in (Stream.In.start hdivides)).isSafe⟩
    rw [EndOnce, ← Text.byteLength_toList]
    exact hdivides.exists_eq_concat

/-- One blank before the parenthesis is gap enough. -/
example :
    (match SourceFile.parse "class A: (B)" with
      | .error e => some e
      | .ok _ => none) = some (.backwardEntry ⟨9, 8⟩) := by
  decide +kernel

end SourceTree

end DoubleDispatch
