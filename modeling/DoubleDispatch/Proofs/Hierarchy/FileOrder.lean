import DoubleDispatch.Proofs.Binding.Reordering
import DoubleDispatch.Proofs.Hierarchy.Participants

/-!
# The order of files

Which symbols are roots, and which types implement them, does not depend on the order in which the
files of a program are given. A declaration has the same answers under each of its numbers
(`Reordered.answersAlike`), so it qualifies under one exactly if it does under the other, and a
search finds the symbols that have a qualifying declaration anywhere (`Reordered.mem_ids_of_found`).
Only the order in which they are found follows that of the files.
-/

namespace DoubleDispatch

namespace AnswersAlike

variable {m m' : SemanticModel} {number number' : Nat} {d : TypeDeclaration}

theorem marksRoot (h : AnswersAlike m m' number number' d) (hd : MarksRoot m number d) :
    MarksRoot m' number' d := by
  obtain ⟨hkind, hfile, part, hpart, a, ha, hmarker⟩ := hd
  exact ⟨hkind, hfile, part, hpart, a, ha, (h.attributeType?_eq a).trans hmarker⟩

/-- Of a root only its name and its id matter. -/
theorem implements (h : AnswersAlike m m' number number' d) {matching : Matching}
    {root root' : Participant} (hname : root'.name = root.name) (hid : root'.id = root.id)
    (hd : Implements matching m root number d) : Implements matching m' root' number' d := by
  obtain ⟨hkind, hfile, b, hb, hnames⟩ := hd
  refine ⟨hkind, hfile, b, hb, ?_⟩
  cases matching with
  | syntactic => exact hnames.trans (congrArg some hname.symm)
  | semantic => exact (h.baseType?_eq b).trans (hnames.trans (congrArg some hid.symm))

end AnswersAlike

namespace Reordered

open Compilation (ofTrees)

variable {trees trees' : List SourceTree} {qualifies qualifies' : Nat → TypeDeclaration → Prop}
  {participants participants' : List Participant}

/-- What is found in trees is found in them in another order, if what qualifies there still does. -/
theorem mem_ids_of_found (h : Reordered trees trees')
    (hq : ∀ {number number' : Nat} {d : TypeDeclaration},
      AnswersAlike (ofTrees trees).model (ofTrees trees').model number number' d →
        qualifies number d → qualifies' number' d)
    (hfound : (ofTrees trees).Found qualifies participants)
    (hfound' : (ofTrees trees').Found qualifies' participants') {id : SymbolId}
    (hid : id ∈ participants.map (·.id)) : id ∈ participants'.map (·.id) := by
  obtain ⟨p, d, symbol, ⟨tree, htree, hstands⟩, hd, hsymbol, rfl⟩ := (hfound.mem_iff id).1 hid
  obtain ⟨number', htree'⟩ := List.getElem?_of_mem (h.perm.mem_iff.1 (List.mem_of_getElem? htree))
  have hanswers := h.answersAlike htree htree' hstands.mem_typesOf
  exact (hfound'.mem_iff symbol.id).2 ⟨⟨number', p.path⟩, d, symbol, ⟨tree, htree', hstands⟩,
    hq hanswers hd, hanswers.declaredSymbol?_eq.trans hsymbol, rfl⟩

theorem mem_ids_roots (h : Reordered trees trees') {id : SymbolId}
    (hid : id ∈ (ofTrees trees).roots.map (·.id)) : id ∈ (ofTrees trees').roots.map (·.id) :=
  h.mem_ids_of_found (fun hanswers ↦ hanswers.marksRoot) (ofTrees trees).found_roots
    (ofTrees trees').found_roots hid

/-- Roots with one id have one name. -/
theorem name_eq_of_id_eq (h : Reordered trees trees')
    (hnames : ∀ tree ∈ trees, ∀ d ∈ tree.types, Text.isIdentifier d.name.toList)
    {root root' : Participant} (hroot : root ∈ (ofTrees trees).roots)
    (hroot' : root' ∈ (ofTrees trees').roots) (hid : root'.id = root.id) :
    root'.name = root.name := by
  have hfound := (ofTrees trees).found_roots
  have hfound' := (ofTrees trees').found_roots
  rw [hfound.id_eq h.ordinals hroot, hfound'.id_eq h.symm.ordinals hroot'] at hid
  have hname := hfound.isIdentifier_name hnames hroot
  have hname' := hfound'.isIdentifier_name (fun tree htree ↦ hnames tree (h.perm.mem_iff.2 htree))
    hroot'
  exact ((SymbolId.ofParts_inj hname' hname).1 hid).2.1

theorem mem_ids_implementors (h : Reordered trees trees') (matching : Matching)
    {root root' : Participant} (hname : root'.name = root.name) (hid : root'.id = root.id)
    {id : SymbolId} (hmem : id ∈ ((ofTrees trees).implementors matching root).map (·.id)) :
    id ∈ ((ofTrees trees').implementors matching root').map (·.id) :=
  h.mem_ids_of_found (fun hanswers ↦ hanswers.implements hname hid)
    ((ofTrees trees).found_implementors matching root)
    ((ofTrees trees').found_implementors matching root') hmem

end Reordered

namespace Pass

open Compilation (ofTrees)

/-- **The order of files does not decide what is found.** Take the trees of a program that is read
in any two orders, and a pass over each of them that nobody cancels. Unless global aliases with one
name have different targets, both passes find roots with the same ids, whatever the matching, and
for each root types with the same ids. -/
theorem found_of_perm {sources : List (String × String)} {trees trees' : List SourceTree}
    (hread : parseAll sources = .ok trees) (hperm : trees.Perm trees')
    (haliases : ∀ name, IsUnambiguousAlias (trees.flatMap (·.file.globalUsings)) name)
    {settings : Settings} {h₁ h₁' h₂ h₂' : History} {report report' : PassReport}
    (hpass : MayEnd settings (ofTrees trees) .never h₁ report h₁')
    (hpass' : MayEnd settings (ofTrees trees') .never h₂ report' h₂') :
    let found := hierarchies settings (ofTrees trees)
    let found' := hierarchies settings (ofTrees trees')
    report.roots = reportsOf (initialNames settings) found ∧
    report'.roots = reportsOf (initialNames settings) found' ∧
    (∀ id, id ∈ found.map (·.root.id) ↔ id ∈ found'.map (·.root.id)) ∧
    ∀ hierarchy ∈ found, ∀ hierarchy' ∈ found', hierarchy'.root.id = hierarchy.root.id →
      ∀ id, id ∈ hierarchy.types.map (·.id) ↔ id ∈ hierarchy'.types.map (·.id) := by
  intro found found'
  have h : Reordered trees trees' := ⟨hperm, nodup_ordinal_of_parseAll hread, haliases⟩
  have hroots (trees : List SourceTree) : (hierarchies settings (ofTrees trees)).map (·.root.id) =
      (ofTrees trees).roots.map (·.id) := by
    rw [hierarchies, List.map_map]
    rfl
  refine ⟨hpass.roots_eq_of_never, hpass'.roots_eq_of_never, fun id ↦ ?_, ?_⟩
  · rw [hroots, hroots]
    exact ⟨h.mem_ids_roots, h.symm.mem_ids_roots⟩
  · intro hierarchy hmem hierarchy' hmem' hid id
    obtain ⟨root, hroot, rfl⟩ := List.mem_map.1 hmem
    obtain ⟨root', hroot', rfl⟩ := List.mem_map.1 hmem'
    have hname := h.name_eq_of_id_eq (isIdentifier_name_of_parseAll hread) hroot hroot' hid
    exact ⟨h.mem_ids_implementors settings.matching hname hid,
      h.symm.mem_ids_implementors settings.matching hname.symm hid.symm⟩

/-- A marker, a root that a global alias names, and a type that implements it by the alias. -/
def orderSample : List (String × String) :=
  [("Marker.cs", "namespace VisitorGenerator; class VisitorNodeAttribute : Attribute;"),
   ("Shapes.cs", "global using VisitorGenerator; global using S = Shapes.IShape; " ++
    "namespace Shapes \x7b [VisitorNode] interface IShape; class Square : IShape; \x7d"),
   ("Round.cs", "namespace Round \x7b class Circle : S; class Ball : IShape; \x7d")]

/-- With the marker last and all files the other way round, the types are found in the other order,
and they are the same. -/
theorem found_of_perm_orderSample :
    ∃ trees, parseAll orderSample = .ok trees ∧
      let found := hierarchies { matching := .semantic } (ofTrees trees)
      let found' := hierarchies { matching := .semantic } (ofTrees trees.reverse)
      found.map (fun hierarchy ↦ (hierarchy.root.id, hierarchy.types.map (·.id))) =
        [(⟨"Shapes.IShape"⟩, [⟨"Shapes.Square"⟩, ⟨"Round.Circle"⟩])] ∧
      found'.map (fun hierarchy ↦ (hierarchy.root.id, hierarchy.types.map (·.id))) =
        [(⟨"Shapes.IShape"⟩, [⟨"Round.Circle"⟩, ⟨"Shapes.Square"⟩])] ∧
      ∀ hierarchy ∈ found, ∀ hierarchy' ∈ found', hierarchy'.root.id = hierarchy.root.id →
        ∀ id, id ∈ hierarchy.types.map (·.id) ↔ id ∈ hierarchy'.types.map (·.id) := by
  have hread : ∃ trees ∈ (parseAll orderSample).toOption,
      let globals := trees.flatMap (·.file.globalUsings)
      let found := hierarchies { matching := .semantic } (ofTrees trees)
      let found' := hierarchies { matching := .semantic } (ofTrees trees.reverse)
      (∀ u ∈ globals, ∀ v ∈ globals, u.kind = v.kind → u.kind = .types ∨ u.target = v.target) ∧
      found.map (fun hierarchy ↦ (hierarchy.root.id, hierarchy.types.map (·.id))) =
        [(⟨"Shapes.IShape"⟩, [⟨"Shapes.Square"⟩, ⟨"Round.Circle"⟩])] ∧
      found'.map (fun hierarchy ↦ (hierarchy.root.id, hierarchy.types.map (·.id))) =
        [(⟨"Shapes.IShape"⟩, [⟨"Round.Circle"⟩, ⟨"Shapes.Square"⟩])] := by decide +kernel
  obtain ⟨trees, htrees, hglobals, hfound, hfound'⟩ := hread
  have hok := eq_ok_of_toOption htrees
  have haliases (name : String) :
      IsUnambiguousAlias (trees.flatMap (·.file.globalUsings)) name := by
    intro u hu v hv hkind hkind'
    refine (hglobals u hu v hv (hkind.trans hkind'.symm)).resolve_left fun htypes ↦ ?_
    rw [hkind] at htypes
    cases htypes
  obtain ⟨-, -, -, hids⟩ := found_of_perm hok (List.reverse_perm trees).symm haliases
    (mayEnd_run { matching := .semantic } (ofTrees trees) .never [])
    (mayEnd_run { matching := .semantic } (ofTrees trees.reverse) .never [])
  exact ⟨trees, hok, hfound, hfound', hids⟩

end Pass

end DoubleDispatch
