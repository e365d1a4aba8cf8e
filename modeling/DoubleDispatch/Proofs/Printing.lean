import DoubleDispatch.Proofs.Parsing
import DoubleDispatch.Proofs.Printing.Body
import DoubleDispatch.Proofs.Printing.Separation

/-!
# Parsing inverts printing

Whatever is built from the syntax of declarations, its text is accepted, and the tree that is read
is the one that was written, apart from the spans. The types of the tree are numbered in document
order.
-/

namespace DoubleDispatch

/-! ### Ordinals -/

mutual

theorem Member.map_ordinal_withoutSpans (m : Member) :
    m.withoutSpans.types.map (·.ordinal) = m.types.map (·.ordinal) := by
  match m with
  | .type d => rfl
  | .scope name fileScoped usings members span =>
    rw [Member.withoutSpans, Member.types, Member.types]
    exact map_ordinal_withoutSpans members

theorem map_ordinal_withoutSpans (ms : List Member) :
    (typesOf (membersWithoutSpans ms)).map (·.ordinal) = (typesOf ms).map (·.ordinal) := by
  match ms with
  | [] => rfl
  | m :: ms =>
    rw [membersWithoutSpans, typesOf, typesOf, List.map_append, List.map_append,
      m.map_ordinal_withoutSpans, map_ordinal_withoutSpans ms]

end

namespace Syntax

/-- The types of printed members are numbered in document order. -/
theorem Members.map_ordinal_tree (m : Members) (ordinal : Nat) :
    (typesOf (m.tree ordinal)).map (·.ordinal) = List.range' ordinal m.size := by
  induction m generalizing ordinal with
  | nil => rfl
  | type declaration later ih =>
    have hlater := ih (ordinal + 1)
    rw [tree, typesOf, Member.types, List.map_append, hlater, size, Nat.add_comm 1,
      List.range'_succ]
    rfl
  | scope name usings content later ihcontent ihlater =>
    rw [tree, typesOf, Member.types, List.map_append, ihcontent, ihlater, size,
      ← List.range'_append_1]
  | fileScoped name usings content ih =>
    rw [tree, typesOf, Member.types, typesOf, List.append_nil, ih, size]

/-! ### Files -/

/-- The text of a file is accepted, and apart from spans its tree is read. -/
theorem File.exists_parse_text (f : File) :
    ∃ file, SourceFile.parse f.text = .ok file ∧ file.withoutSpans = f.tree := by
  have hbefore : Stream.Before f.text.toList f.write ⟨Piece.tokensAt 0 f.write, 0⟩ :=
    ⟨[], String.toList_ofList, rfl⟩
  obtain ⟨b, hb, hreads⟩ : ∃ b, Stream.bodyOf f.text.toList false 0
      ⟨Piece.tokensAt 0 f.write, 0⟩ = .ok b ∧
        Stream.ReadsMembers f.text.toList f.members f.usings [] 0 b :=
    Stream.Before.bodyOf_usings (fun _ hs ↦ hs.bodyOf_members f.members rfl) hbefore
  refine ⟨⟨b.usings, b.members⟩, ?_, ?_⟩
  · rw [SourceFile.parse_of_tokenize f.tokenize_text, hb]
    rfl
  · rw [SourceFile.withoutSpans, hreads.usings, hreads.members]
    rfl

end Syntax

namespace SourceTree

/-- **Parsing inverts printing.** -/
theorem parse_print (path : String) (f : Syntax.File) :
    ∃ tree, SourceTree.parse path f.text = .ok tree ∧ tree.path = path ∧ tree.source = f.text ∧
      tree.file.withoutSpans = f.tree ∧
      tree.types.map (·.ordinal) = List.range tree.types.length := by
  obtain ⟨file, hparse, htree⟩ := f.exists_parse_text
  have hordinals : file.types.map (·.ordinal) = List.range' 0 f.members.size := by
    have hmembers : membersWithoutSpans file.members = f.members.tree 0 :=
      congrArg SourceFile.members htree
    rw [SourceFile.types, ← map_ordinal_withoutSpans, hmembers, f.members.map_ordinal_tree]
  have hlength : file.types.length = f.members.size := by
    have hlength := congrArg List.length hordinals
    rwa [List.length_map, List.length_range'] at hlength
  refine ⟨⟨path, f.text, file⟩, ?_, rfl, rfl, htree, ?_⟩
  · rw [SourceTree.parse, hparse]
  · show file.types.map (·.ordinal) = List.range file.types.length
    rw [hordinals, hlength, List.range_eq_range']

end SourceTree

end DoubleDispatch
