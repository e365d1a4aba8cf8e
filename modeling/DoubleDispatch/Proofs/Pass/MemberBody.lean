import DoubleDispatch.Proofs.Parsing.MemberBody
import DoubleDispatch.Proofs.Pass.Relayout

/-!
# Passes over sources with other member bodies

What stands in the body of a type cannot change a declaration, so it cannot change what is found,
nor what is generated.
-/

namespace DoubleDispatch

namespace Pass

theorem same_implies_readAlike : WrittenNames.same.Implies .readAlike where
  usingTarget _ _ h := h.symm
  attributeName n n' h := by
    obtain rfl : n = n' := h
    exact isReflexive_readAlike.attributeName n
  baseText n n' h := by
    obtain rfl : n = n' := h
    exact isReflexive_readAlike.baseText n

/-- **Member bodies are opaque.** Take a source that is read, with a declaration in it that has the
tokens between two braces as its body, and the source with any other text between these braces in
which they are tokens as well and what they enclose is balanced. Then that source is read with the
same tree apart from spans. And passes over programs with either tree, whatever other trees they
have, end with the same report and the same artifacts, as long as only the receiver of the artifacts
cancels them. -/
theorem ends_alike_of_isBody {g : BracedText} {content : List Char}
    {front inner back front' inner' back' : List Token} (h : g.Divides front inner back)
    (h' : (g.withContent content).Divides front' inner' back') {path : String} {tree : SourceTree}
    (htree : SourceTree.parse path (String.ofList g.source) = .ok tree) {d : TypeDeclaration}
    (hd : IsBody g.source (front ++ g.opener :: (inner ++ g.closer :: back)) d
      (g.opener :: (inner ++ g.closer :: back))) :
    ∃ tree', SourceTree.parse path (String.ofList (g.withContent content).source) = .ok tree' ∧
      tree'.file.withoutSpans = tree.file.withoutSpans ∧
      ∀ before behind settings token h report report' h₁ h₂,
        CancellationToken.IsByReceiver token h →
        MayEnd settings (.ofTrees (before ++ tree :: behind)) token h report h₁ →
        MayEnd settings (.ofTrees (before ++ tree' :: behind)) token h report' h₂ →
        report' = report ∧ h₂.artifacts = h₁.artifacts := by
  obtain ⟨file', hfile', hsame⟩ :=
    SourceFile.exists_parse_of_isBody h h' (SourceTree.file_of_parse htree) hd
  let tree' : SourceTree := ⟨path, String.ofList (g.withContent content).source, file'⟩
  refine ⟨tree', SourceTree.parse_of_file hfile', hsame.withoutSpans, ?_⟩
  intro before behind settings token h report report' h₁ h₂ ht hm hm'
  have hmatch : List.Forall₂ (fun tree tree' : SourceTree ↦ tree.file.Matches .readAlike tree'.file)
      [tree] [tree'] := .cons (same_implies_readAlike.file hsame) .nil
  have halike := alike_ofTrees hmatch before behind
  rw [List.append_assoc, List.append_assoc] at halike
  exact (hm.ends ht).alike ht halike (hm'.ends ht)

/-- A root without members, and a class that implements it. -/
def rootSample : BracedText where
  before := "[VisitorGenerator.VisitorNode]interface I".toList
  content := []
  behind := "class A:I;".toList

/-- Text for the body of the root. The class in it is none of the declarations of the source. -/
def nestedSample : List Char := "[X]class B:I\x7bstring S=\"\x7d\";\x7dusing Y;".toList

/-- The tokens before the body of the root. -/
def rootFront : List Token :=
  [⟨.openBracket, ⟨0, 1⟩⟩, ⟨.identifier "VisitorGenerator", ⟨1, 17⟩⟩, ⟨.dot, ⟨17, 18⟩⟩,
    ⟨.identifier "VisitorNode", ⟨18, 29⟩⟩, ⟨.closeBracket, ⟨29, 30⟩⟩,
    ⟨.identifier "interface", ⟨30, 39⟩⟩, ⟨.identifier "I", ⟨40, 41⟩⟩]

/-- The tokens behind the body of the root. -/
def rootBack : List Token :=
  [⟨.identifier "class", ⟨43, 48⟩⟩, ⟨.identifier "A", ⟨49, 50⟩⟩, ⟨.colon, ⟨50, 51⟩⟩,
    ⟨.identifier "I", ⟨51, 52⟩⟩, ⟨.semicolon, ⟨52, 53⟩⟩, ⟨.endOfFile, ⟨53, 53⟩⟩]

theorem rootSample_divides : rootSample.Divides rootFront [] rootBack where
  tokens := eq_ok_of_toOption (by decide +kernel)
  balanced := .nil

theorem nestedSample_divides : ∃ inner back,
    (rootSample.withContent nestedSample).Divides rootFront inner back := by
  obtain ⟨tokens, htokens, hsplit, hinner⟩ :
      ∃ tokens ∈ (tokenize (String.ofList (rootSample.withContent nestedSample).source)).toOption,
        tokens = rootFront ++ rootSample.opener :: ((tokens.drop 8).take 17 ++
          (rootSample.withContent nestedSample).closer :: tokens.drop 26) ∧
        Balanced (kindsOf ((tokens.drop 8).take 17)) := by
    decide +kernel
  exact ⟨_, tokens.drop 26, (eq_ok_of_toOption htokens).trans (congrArg Except.ok hsplit), hinner⟩

/-- The root has the tokens between the braces as its body. -/
theorem rootSample_isBody : ∃ d, IsBody rootSample.source
    (rootFront ++ rootSample.opener :: ([] ++ rootSample.closer :: rootBack)) d
    (rootSample.opener :: ([] ++ rootSample.closer :: rootBack)) := by
  let s : Stream := ⟨rootFront ++ rootSample.opener :: ([] ++ rootSample.closer :: rootBack), 0⟩
  obtain ⟨found, hfound, hsome⟩ :
      ∃ found ∈ (s.typeDeclaration? rootSample.source 0).toOption, found.isSome = true := by
    decide +kernel
  obtain ⟨d, rfl⟩ := Option.isSome_iff_exists.1 hsome
  obtain ⟨header, hheader, head, hhead, hmark⟩ : ∃ header ∈ s.headerStart? rootSample.source,
      ∃ head ∈ (header.rest.head rootSample.source header.value).toOption,
        head.rest.ahead = rootSample.opener :: ([] ++ rootSample.closer :: rootBack) := by
    decide +kernel
  exact ⟨d.value, false, 0, s, .here, ⟨rfl, by decide⟩, rfl, rfl,
    ⟨d.rest, eq_ok_of_toOption hfound⟩, header, head, hheader, eq_ok_of_toOption hhead, hmark⟩

/-- The root has one implementor, whatever stands in its body. -/
theorem ends_alike_of_isBody_sample :
    ∃ marker tree tree', SourceTree.parse markerSample.1 markerSample.2 = .ok marker ∧
      SourceTree.parse "A.cs" (String.ofList rootSample.source) = .ok tree ∧
      SourceTree.parse "A.cs" (String.ofList (rootSample.withContent nestedSample).source) =
        .ok tree' ∧
      (run {} (.ofTrees [marker, tree]) .never []).1.roots.map (·.implementingTypes) = [["A"]] ∧
      (run {} (.ofTrees [marker, tree']) .never []).1 =
        (run {} (.ofTrees [marker, tree]) .never []).1 := by
  obtain ⟨marker, hmarker, tree, htree, hroots⟩ :
      ∃ marker, SourceTree.parse markerSample.1 markerSample.2 = .ok marker ∧
        ∃ tree ∈ (SourceTree.ofCharacters "A.cs" rootSample.source).toOption,
          (run {} (.ofTrees [marker, tree]) .never []).1.roots.map (·.implementingTypes) =
            [["A"]] :=
    SourceTree.exists_parse _ _ _ rfl (by decide +kernel)
  have htree : SourceTree.parse "A.cs" (String.ofList rootSample.source) = .ok tree := by
    rw [SourceTree.parse_ofList, eq_ok_of_toOption htree]
  obtain ⟨inner, back, hnested⟩ := nestedSample_divides
  obtain ⟨d, hd⟩ := rootSample_isBody
  obtain ⟨tree', htree', -, hends⟩ := ends_alike_of_isBody rootSample_divides hnested htree hd
  obtain ⟨hreport, -⟩ := hends [marker] [] {} .never [] _ _ _ _ (.never fun _ ↦ rfl)
    (mayEnd_run _ _ _ _) (mayEnd_run _ _ _ _)
  exact ⟨marker, tree, tree', hmarker, htree, htree', hroots, hreport⟩

end Pass

end DoubleDispatch
