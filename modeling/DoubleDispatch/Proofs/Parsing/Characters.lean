import DoubleDispatch.Compilation
import DoubleDispatch.Proofs.Parsing.Passage

/-!
# Reading characters

A file is read from the characters of its text. When a computation is checked, a text that is
written out is slow to take apart, and a list of characters is not. So what is computed about
examples is computed from their characters (`SourceTree.exists_parse`, `exists_parseAll`).
-/

namespace DoubleDispatch

/-- Reads a file from the characters of its text. -/
def SourceTree.ofCharacters (path : String) (text : List Char) : Except SourceError SourceTree :=
  match Lexer.tokensFrom true 0 text with
  | .error e => .error (locate path (.ofList text) (.rejected (.lexical e.fault) e.span))
  | .ok tokens =>
    match Stream.body text false 0 ⟨tokens, 0⟩ with
    | .error e => .error (locate path (.ofList text) e)
    | .ok ⟨body, _⟩ => .ok ⟨path, .ofList text, body.usings, body.members⟩

theorem SourceTree.parse_ofList (path : String) (text : List Char) :
    parse path (.ofList text) = ofCharacters path text := by
  rw [parse, SourceFile.parse, tokenize, String.toList_ofList, ofCharacters]
  cases Lexer.tokensFrom true 0 text with
  | error e => rfl
  | ok tokens =>
    dsimp only
    cases Stream.body text false 0 ⟨tokens, 0⟩ with
    | error e => rfl
    | ok body => rfl

/-- What holds of the tree that is read from characters holds of the tree of the text. -/
theorem SourceTree.exists_parse (path source : String) (text : List Char)
    (h : source = .ofList text) {Holds : SourceTree → Prop}
    (hread : ∃ tree ∈ (ofCharacters path text).toOption, Holds tree) :
    ∃ tree, parse path source = .ok tree ∧ Holds tree := by
  obtain ⟨tree, htree, hholds⟩ := hread
  exact ⟨tree, by rw [h, parse_ofList, eq_ok_of_toOption htree], hholds⟩

/-- What holds of the tree that is read from the characters of lines holds of the tree of the text
that is put together from them. -/
theorem SourceTree.exists_parse_lines (path : String) (lines : List String)
    (texts : List (List Char)) (h : lines = texts.map .ofList) {Holds : SourceTree → Prop}
    (hread : ∃ tree ∈ (ofCharacters path (texts.flatMap (· ++ ['\n']))).toOption, Holds tree) :
    ∃ tree, parse path (String.join (lines.map (· ++ "\n"))) = .ok tree ∧ Holds tree := by
  refine exists_parse path _ _ ?_ hread
  rw [h, ← String.toList_inj, String.toList_join]
  simp [List.flatMap_map]

/-- What holds of the trees that are read from characters holds of the trees of the texts. -/
theorem exists_parseAll (sources : List (String × String)) (texts : List (String × List Char))
    (h : sources = texts.map fun s ↦ (s.1, .ofList s.2)) {Holds : List SourceTree → Prop}
    (hread : ∃ trees ∈ (texts.mapM fun s ↦ SourceTree.ofCharacters s.1 s.2).toOption,
      Holds trees) :
    ∃ trees, parseAll sources = .ok trees ∧ Holds trees := by
  obtain ⟨trees, htrees, hholds⟩ := hread
  have hall : parseAll sources = texts.mapM fun s ↦ SourceTree.ofCharacters s.1 s.2 := by
    rw [h, parseAll, List.mapM_map]
    exact congrArg (texts.mapM ·) (funext fun s ↦ SourceTree.parse_ofList s.1 s.2)
  exact ⟨trees, hall.trans (eq_ok_of_toOption htrees), hholds⟩

end DoubleDispatch
