import DoubleDispatch.Proofs.Parsing.MovedBody
import DoubleDispatch.Proofs.Parsing.Ordinals
import DoubleDispatch.Proofs.Parsing.Reaching
import DoubleDispatch.Proofs.Token.Lines

/-!
# Sources one behind the other

A source that ends like an item of a body is read to its end before what is behind it is looked at
(`Pairing.Level.bodyOf_eq`), unless one of its namespaces is still open there. So two sources with a
line break between them hold what the first one holds and then what the second one holds.
-/

namespace DoubleDispatch

open Text (byteLength)

/-- Whether a member is a namespace that ends with what encloses it. -/
def Member.isFileScoped : Member → Bool
  | .type _ => false
  | .scope _ fileScoped .. => fileScoped

/-- What a file holds, and then what another one holds. -/
def SourceFile.append (file later : SourceFile) : SourceFile :=
  ⟨file.usings ++ later.usings, file.members ++ later.members⟩

/-- What a body holds, and then what is read behind it. -/
def Stream.Body.before (b later : Stream.Body) : Stream.Body :=
  { later with usings := b.usings ++ later.usings, members := b.members ++ later.members }

namespace Pairing

variable {P : Pairing} {s s' : Stream}

/-- **A body is read before what is behind it.** On the other side, where other tokens follow, the
same is read, and then what follows. -/
theorem Level.bodyOf_eq (h : P.Level s s') {braced : Bool} {ordinal : Nat} {b : Stream.Body}
    (hreads : Stream.Reads P.left braced ordinal s b) (hsame : P.likeness.IsIdentity)
    (hordered : P.IsOrdered) (hplace : P.GuardedUpTo s b.rest)
    (hscoped : ∀ m ∈ b.members, m.isFileScoped = false) :
    ∃ t', P.Level b.rest t' ∧ Stream.bodyOf P.right braced ordinal s' =
      b.before <$> Stream.bodyOf P.right braced b.ordinal t' := by
  induction hreads generalizing s' with
  | @done braced ordinal s ends =>
    refine ⟨s', h, ?_⟩
    cases Stream.bodyOf P.right braced ordinal s' <;> rfl
  | @usingDirective braced ordinal s u later goesOn found hlater ih =>
    obtain ⟨hclears, hrest⟩ :=
      hplace.behind (Stream.takesItem_using found).passes hlater.exists_passes
    obtain ⟨u', hlike, hlevel, heq⟩ := h.beside.bodyOf_using goesOn found hclears.upTo
    obtain ⟨t', ht', hlaters⟩ := ih hlevel hrest hscoped
    refine ⟨t', ht', ?_⟩
    rw [heq, hlaters, hsame.usingDirective_eq hlike]
    cases Stream.bodyOf P.right braced later.ordinal t' <;> rfl
  | @scope braced ordinal s header content later goesOn noUsing word found hcontent hlater _ ih =>
    have hblock : header.value.2 = false := hscoped _ List.mem_cons_self
    have hheader := (Stream.takesItem_namespaceHeader word found).passes
    have hbehinds := Stream.exists_passes_trans hcontent.exists_passes_behindBody
      hlater.exists_passes
    have hall := Stream.exists_passes_trans hcontent.exists_passes hbehinds
    obtain ⟨hclears, hrest⟩ := hplace.behind hheader hall
    have hguarded := hplace.guarded hheader hall
      (Nat.lt_of_lt_of_le (Stream.size_namespaceHeader_lt found) s.size_advance_le)
    -- The content ends with its brace, which stands before what is behind the body.
    obtain ⟨-, hcontentRest⟩ := hrest.behind hcontent.exists_passes hbehinds
    obtain ⟨hbehind, hbehindRest⟩ :=
      hcontentRest.behind hcontent.exists_passes_behindBody hlater.exists_passes
    have hcontentGuarded := hcontentRest.guarded hcontent.exists_passes_behindBody
      hlater.exists_passes (Replacement.size_behindBody_lt hcontent hblock)
    obtain ⟨header', hvalue, hlevel, heq⟩ :=
      h.beside.bodyOf_namespace hguarded goesOn noUsing word found hclears.upTo
    obtain ⟨content', hcontent', hcontents, hfollows⟩ :=
      (hlevel.beside.reads hcontent hcontentGuarded).exists_eq_ok hordered
    have hlevels := (hfollows.level hlevel).behindBody hcontentGuarded.before hbehind
    obtain ⟨t', ht', hlaters⟩ := ih hlevels hbehindRest fun m hm ↦
      hscoped m (List.mem_cons_of_mem _ hm)
    have hscope : content'.toScope header.value s'.start = content.toScope header.value s.start :=
      hsame.member_eq ⟨rfl, rfl, ⟨h.beside.meet_start hguarded.before
        (Stream.isPlain_of_isWord word).inside, hlevels.prevEnd⟩, hcontents.usings,
        hcontents.members⟩
    refine ⟨t', ht', ?_⟩
    rw [heq, hcontent', Stream.ok_bind, hcontents.ordinal, hlaters]
    dsimp only [Stream.Body.behindScope]
    rw [hscope]
    cases Stream.bodyOf P.right braced later.ordinal t' <;> rfl
  | @type braced ordinal s d later goesOn noUsing noNamespace found hlater ih =>
    have hitem := (Stream.takesItem_typeDeclaration? found).passes
    obtain ⟨hclears, hrest⟩ := hplace.behind hitem hlater.exists_passes
    have hguarded := hplace.guarded hitem hlater.exists_passes
      (Stream.size_typeDeclaration?_lt found)
    obtain ⟨d', hlike, hlevel, heq⟩ | ⟨hnot, -⟩ :=
      h.beside.bodyOf_type hguarded goesOn noUsing noNamespace found hclears
    · obtain ⟨t', ht', hlaters⟩ := ih hlevel hrest fun m hm ↦ hscoped m (List.mem_cons_of_mem _ hm)
      refine ⟨t', ht', ?_⟩
      rw [heq, hlaters, hsame.declaration_eq hlike]
      cases Stream.bodyOf P.right braced later.ordinal t' <;> rfl
    · exact absurd hordered hnot
  | @item braced ordinal s next later goesOn noUsing noNamespace noType found hlater ih =>
    have hitem : ∃ strays, s.Passes next strays :=
      ⟨[], Stream.passes_skipItem goesOn.kind found⟩
    obtain ⟨hclears, hrest⟩ := hplace.behind hitem hlater.exists_passes
    have hguarded := hplace.guarded hitem hlater.exists_passes
      (Stream.size_skipItem_lt goesOn.kind found)
    obtain ⟨next', hlevel, heq⟩ :=
      h.beside.bodyOf_item hguarded goesOn noUsing noNamespace noType found hclears.upTo
    obtain ⟨t', ht', hlaters⟩ := ih hlevel hrest hscoped
    exact ⟨t', ht', heq.trans hlaters⟩

end Pairing

/-! ### Sources -/

section Sources

variable {a b : String} {front : List Token} {eof : Token}

/-- The first of two sources that are parsed, with what is behind it. -/
def concatenation (a b : String) : Replacement := ⟨a.toList, [], '\n' :: b.toList, []⟩

theorem source_concatenation (a b : String) : (concatenation a b).source = a.toList :=
  List.append_nil a.toList

theorem changed_concatenation (a b : String) :
    (concatenation a b).changed = (a ++ "\n" ++ b).toList := by
  rw [toList_append_lineBreak, Replacement.changed, concatenation, List.append_nil]

/-- The tokens of the first source are those before the second one. -/
theorem level_concatenation (hstands : ∀ t ∈ front, t.StandsIn a.toList)
    (tail tail' : List Token) :
    ((concatenation a b).front tail tail').Level ⟨front ++ tail, 0⟩ ⟨front ++ tail', 0⟩ := by
  refine ⟨⟨front, front, rfl, rfl, List.forall₂_same.2 fun t ht ↦ ?_⟩, rfl, Nat.zero_le _⟩
  have hstop := (hstands t ht).fits.stop.le_byteLength
  exact ⟨rfl, ⟨rfl, Nat.le_trans (hstands t ht).fits.le hstop⟩, rfl, hstop⟩

theorem isIdentity_front (R : Replacement) (tail tail' : List Token) :
    (R.front tail tail').likeness.IsIdentity where
  usingTarget := fun _ _ h ↦ h trivial
  attributeName := fun _ _ h ↦ h trivial
  baseText := fun _ _ h ↦ h trivial
  span := fun ⟨_, _⟩ ⟨_, _⟩ h ↦ congrArg₂ Span.mk h.1.1 h.2.1

/-- A file that is parsed is read up to its end, where nothing else is left. -/
theorem SourceFile.exists_front_of_parse {source : String} {file : SourceFile}
    (h : SourceFile.parse source = .ok file) :
    ∃ front eof body, tokenize source = .ok (front ++ [eof]) ∧
      eof.span.start = byteLength source.toList ∧ (∀ t ∈ front, t.StandsIn source.toList) ∧
      Stream.Reads source.toList false 0 ⟨front ++ [eof], 0⟩ body ∧ body.rest.ahead = [eof] ∧
      file = body.file := by
  obtain ⟨tokens, body, htokens, hdivides, hreads, hfile⟩ := exists_reads_of_parse h
  obtain ⟨front, rfl, hfront⟩ := hdivides.exists_eq_concat
  obtain ⟨taken, _, hahead, hbalanced, -⟩ := hreads.exists_takesBody
  have hend : body.rest.kind = .endOfFile := by simpa [Stream.endsBody] using hreads.endsBody
  obtain rfl : front = taken :=
    eq_of_append_endOfFile (fun t ht ↦ (hfront t ht).1) rfl hbalanced.inside hend hahead
  exact ⟨front, _, body, htokens, rfl, fun t ht ↦ (hfront t ht).2, hreads,
    (List.append_cancel_left hahead).symm, hfile⟩

/-- Of two sources, the first one is read as it is alone, and then the second one. -/
theorem bodyOf_concatenation {body : Stream.Body} {tail : List Token}
    (hstands : ∀ t ∈ front, t.StandsIn a.toList) (hends : front = [] ∨ EndsItem front)
    (hreads : Stream.Reads a.toList false 0 ⟨front ++ [eof], 0⟩ body)
    (hrest : body.rest.ahead = [eof]) (hscoped : ∀ m ∈ body.members, m.isFileScoped = false)
    (hclear : Stream.kind ⟨tail, 0⟩ ≠ .semicolon) :
    ∃ prevEnd, Stream.bodyOf (a ++ "\n" ++ b).toList false 0 ⟨front ++ tail, 0⟩ =
      body.before <$> Stream.bodyOf (a ++ "\n" ++ b).toList false body.ordinal ⟨tail, prevEnd⟩ := by
  have hplace : ((concatenation a b).front [eof] tail).GuardedUpTo ⟨front ++ [eof], 0⟩ body.rest :=
    .of_meetsTail hclear ⟨hrest, front, by rw [hrest], hends⟩
  rw [← source_concatenation a b] at hreads
  obtain ⟨⟨ahead, prevEnd⟩, ⟨⟨left, right, hleft, hright, hmeets⟩, -⟩, heq⟩ :=
    (level_concatenation hstands [eof] tail).bodyOf_eq hreads (isIdentity_front _ _ _) trivial
      hplace hscoped
  obtain rfl : left = [] := List.append_left_eq_self.1 (hleft.symm.trans hrest)
  obtain rfl := List.forall₂_nil_left_iff.1 hmeets
  obtain rfl : ahead = tail := hright
  rw [show ((concatenation a b).front [eof] ahead).right = _ from changed_concatenation a b] at heq
  exact ⟨prevEnd, heq⟩

end Sources

/-- **Sources can be put one behind the other.** If a source is parsed, ends with a brace or a
semicolon and leaves no namespace open, and the next one does not start with a semicolon, then both
with a line break between them give what the first one holds and then what the second one holds, as
many bytes later as stand before it and numbered on; or the fault of the second one, that many bytes
later. -/
theorem SourceFile.parse_append {a b : String} {fileA : SourceFile}
    (ha : SourceFile.parse a = .ok fileA)
    (hlast : ∀ front last eof, tokenize a = .ok (front ++ [last, eof]) →
      last.kind = .closeBrace ∨ last.kind = .semicolon)
    (hscoped : ∀ m ∈ fileA.members, m.isFileScoped = false)
    (hfirst : ∀ first later, tokenize b = .ok (first :: later) → first.kind ≠ .semicolon) :
    SourceFile.parse (a ++ "\n" ++ b) =
      fileA.append <$> movedFile (a.utf8ByteSize + 1) fileA.types.length (SourceFile.parse b) := by
  obtain ⟨front, eof, body, htokens, heof, hstands, hreads, hrest, rfl⟩ := exists_front_of_parse ha
  have hlexed := tokenize_append (b := b) htokens heof
  rw [← Text.byteLength_toList]
  cases htokensB : tokenize b with
  | error e =>
    rw [htokensB] at hlexed
    rw [parse, hlexed, parse, htokensB]
    rfl
  | ok tokens =>
    rw [htokensB] at hlexed
    have hends : front = [] ∨ EndsItem front := by
      rcases List.eq_nil_or_concat front with hnone | ⟨inner, last, rfl⟩
      · exact .inl hnone
      · rw [List.concat_eq_append, List.append_assoc] at htokens
        refine .inr ⟨inner, last, List.concat_eq_append, ?_⟩
        rcases hlast inner last _ htokens with hbrace | hsemicolon
        · exact .inr (.inr hbrace)
        · exact .inl hsemicolon
    have hclear : Stream.kind ⟨tokens.map (Token.moved (byteLength a.toList + 1)), 0⟩ ≠
        .semicolon := by
      obtain _ | ⟨first, later⟩ := tokens
      · rw [List.map_nil]
        exact fun h ↦ absurd h (by decide)
      · exact hfirst first later htokensB
    obtain ⟨prevEnd, hbody⟩ :=
      bodyOf_concatenation (b := b) hstands hends hreads hrest hscoped hclear
    have htypes : body.ordinal = body.file.types.length :=
      hreads.map_ordinal.2.trans (Nat.zero_add _)
    have hlength : byteLength (a.toList ++ ['\n']) = byteLength a.toList + 1 :=
      Text.byteLength_append _ _
    have hmoved := Stream.bodyOf_moved b.toList (a.toList ++ ['\n']) body.ordinal tokens prevEnd
    rw [List.append_assoc, List.singleton_append, ← toList_append_lineBreak, hlength] at hmoved
    rw [parse_of_tokenize hlexed, parse_of_tokenize htokensB, hbody, ← htypes]
    refine Eq.trans ?_ (congrArg (body.file.append <$> ·) hmoved)
    cases Stream.bodyOf (a ++ "\n" ++ b).toList false body.ordinal
      ⟨tokens.map (Token.moved (byteLength a.toList + 1)), prevEnd⟩ <;> rfl

/-- A source with a namespace in braces, and one with a namespace that ends with the file. -/
def blockSample : String := "using S; namespace N { [X] class A { } }"

def fileScopedSample : String := "using T = U; namespace M; class B : A;"

theorem blockSample_last {front : List Token} {last eof : Token}
    (h : tokenize blockSample = .ok (front ++ [last, eof])) :
    last.kind = .closeBrace ∨ last.kind = .semicolon := by
  obtain ⟨tokens, htokens, hlast⟩ : ∃ tokens ∈ (tokenize blockSample).toOption,
      ∀ last ∈ tokens.dropLast.getLast?, last.kind = .closeBrace := by
    decide +kernel
  obtain rfl := Except.ok.inj (h.symm.trans (eq_ok_of_toOption htokens))
  exact .inl (hlast last (by simp))

/-- The second source is read behind the first, and so is a fault. -/
theorem SourceFile.parse_append_blockSample :
    ∃ fileA fileB, SourceFile.parse blockSample = .ok fileA ∧
      SourceFile.parse fileScopedSample = .ok fileB ∧ fileA.types.length = 1 ∧
      SourceFile.parse (blockSample ++ "\n" ++ fileScopedSample) =
        .ok (fileA.append (fileB.moved 41 1)) ∧
      SourceFile.parse (blockSample ++ "\n" ++ "class") =
        .error (.rejected (.unexpected (.typeName .classType) .endOfFile) ⟨46, 46⟩) := by
  obtain ⟨fileA, hA, hscoped, hcount⟩ : ∃ file ∈ (SourceFile.parse blockSample).toOption,
      (∀ m ∈ file.members, m.isFileScoped = false) ∧ file.types.length = 1 := by
    decide +kernel
  have hA := eq_ok_of_toOption hA
  have hlength : blockSample.utf8ByteSize = 40 := by decide +kernel
  have hfirst : ∀ b ∈ [fileScopedSample, "class"], ∀ tokens ∈ (tokenize b).toOption,
      ∀ first ∈ tokens.head?, first.kind ≠ .semicolon := by
    decide +kernel
  have happend : ∀ b ∈ [fileScopedSample, "class"], SourceFile.parse (blockSample ++ "\n" ++ b) =
      fileA.append <$> movedFile 41 1 (SourceFile.parse b) := by
    intro b hb
    have hparse := parse_append hA (fun _ _ _ ↦ blockSample_last) hscoped fun first later htokens ↦
      hfirst b hb (first :: later) (htokens ▸ rfl) first rfl
    rwa [hlength, hcount] at hparse
  have hB : (SourceFile.parse fileScopedSample).isOk := by decide +kernel
  obtain ⟨fileB, hB⟩ := exists_eq_ok_of_isOk hB
  have hclass : (·.types.length) <$> SourceFile.parse "class" =
      .error (.rejected (.unexpected (.typeName .classType) .endOfFile) ⟨5, 5⟩) := by
    decide +kernel
  refine ⟨fileA, fileB, hA, hB, hcount, ?_, ?_⟩
  · rw [happend _ (by decide), hB]
    rfl
  · rw [happend _ (by decide)]
    cases hparse : SourceFile.parse "class" <;> rw [hparse] at hclass <;> cases hclass
    rfl

end DoubleDispatch
