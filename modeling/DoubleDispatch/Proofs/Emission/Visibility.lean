import DoubleDispatch.Proofs.Binding.Lookup
import DoubleDispatch.Proofs.Pass.Artifacts

/-!
# Which types see their contract

The file that continues an implementing type imports nothing, so the name of its contract is looked
for in the namespaces around the type only. A type in the namespace of its root, or inside that,
sees the contract unless a nearer namespace declares a type with the same name. Any other type does
not see it, except through a global directive of the program.
-/

namespace DoubleDispatch

/-- The id of the contract of a root whose visits give nothing. -/
def Participant.contractId (root : Participant) : SymbolId := .ofParts root.ns root.visitorName 0

/-- Seen from a namespace, the nearest type with the name of the contract of a root is the contract:
its namespace is among those around, and none that is nearer declares such a type. -/
structure DeclarationTable.Nearest (table : DeclarationTable) (root : Participant)
    (ns : Namespace) : Prop where
  encloses : root.ns ∈ ns.enclosing
  unshadowed : ∀ outer ∈ ns.enclosing.takeWhile (· ≠ root.ns),
    table.lookup? (outer.qualify root.visitorName) = none

/-! ### The contract in the table -/

theorem Hierarchy.IsWellNamed.lookup?_contract {h : Hierarchy} (hh : h.IsWellNamed) {path : String}
    {root : SourceTree} (hparse : SourceTree.parse path h.rootFile.render = .ok root)
    {trees : List SourceTree} (hroot : root ∈ trees) :
    (DeclarationTable.ofTrees trees).lookup? (h.root.ns.qualify h.root.visitorName) =
      some ⟨h.root.ns.qualify h.root.visitorName⟩ := by
  obtain ⟨root', first, value, void, hparse', htree, -, -, -, hvoid⟩ :=
    hh.exists_parse_rootFile path
  obtain rfl : root' = root := Except.ok.inj (hparse'.symm.trans hparse)
  have hid : h.root.contractId ∈
      root'.types.map fun d ↦ SymbolId.ofParts h.root.ns d.name d.arity := by
    rw [htree.map_id, List.map_cons, List.map_cons, List.map_singleton, hvoid]
    exact .tail _ (.tail _ (.head _))
  obtain ⟨d, hd, hid⟩ := List.mem_map.1 hid
  obtain ⟨n, hn⟩ := List.mem_iff_getElem?.1 hroot
  have hentry := DeclarationTable.mem_entries_ofTrees.2 ⟨n, root', hn, htree.mem_placed hd _ _⟩
  have hlookup := DeclarationTable.lookup?_of_mem hentry
  have hsymbol : (Symbol.ofDeclaration h.root.ns d).id = h.root.contractId := hid
  dsimp only at hlookup
  rw [hsymbol] at hlookup
  exact hlookup

/-! ### The name of the contract at an augmentation -/

/-- What the name of the contract means in the file that continues an implementing type. -/
theorem Hierarchy.IsWellNamed.baseType?_contract {h : Hierarchy} (hh : h.IsWellNamed)
    {p : Participant} (hp : p ∈ h.types) {path path' : String} {type root : SourceTree}
    (htype : SourceTree.parse path (p.augmentation h.root).render = .ok type)
    (hroot : SourceTree.parse path' h.rootFile.render = .ok root) {trees : List SourceTree}
    {n : Nat} (hn : trees[n]? = some type) (hmem : root ∈ trees) :
    ∃ d, type.types = [d] ∧ ∀ base : BaseEntry, base.text = Contract.void.reference h.root →
      let table := DeclarationTable.ofTrees trees
      (table.Nearest h.root p.ns → table.model.baseType? n d base = some h.root.contractId) ∧
        (table.globalUsings = [] → table.model.baseType? n d base = some h.root.contractId →
          table.Nearest h.root p.ns) := by
  obtain ⟨type', block, hparse, htree, -, methods, hblock⟩ :=
    (hh.types p hp).exists_parse_augmentation hh.root path
  obtain rfl : type' = type := Except.ok.inj (hparse.symm.trans htype)
  obtain ⟨d, hd, -⟩ := List.map_eq_singleton_iff.1 htree.types
  refine ⟨d, hd, fun base hbase ↦ ?_⟩
  -- Without imports of its own, the file asks the global directives behind the namespaces.
  have husings : type'.file.usings = [] := List.map_eq_nil_iff.1 htree.usings
  have hget := htree.get?_ofTrees hn (d := d) (by rw [hd]; exact List.mem_singleton_self d)
  have hname := (Participant.isName_visitorName hh.root.name).1
  have hcontract := hh.lookup?_contract hroot hmem
  intro table
  have hresolve : table.model.baseType? n d base =
      (p.ns.enclosing.findSome? fun outer ↦
          table.lookup? (outer.qualify h.root.visitorName)).or
        (Verdict.first? [table.verdictOfUsings table.globalUsings
          ⟨.plain, [h.root.visitorName], 0⟩]) := by
    rw [table.baseType?_model, hbase, Contract.reference, DeclarationTable.resolve?,
      Reference.parse?_of_isIdentifier hname, hget]
    dsimp only
    rw [husings, table.resolveReference?_around _ _ rfl]
    rfl
  have hnearest := DeclarationTable.findSome?_eq_some_iff hcontract p.ns.enclosing
  rw [hresolve]
  refine ⟨fun hsees ↦ ?_, fun hglobals hresolved ↦ ?_⟩
  · rw [hnearest.2 ⟨hsees.encloses, hsees.unshadowed⟩]
    rfl
  · have hnone : Verdict.first? [table.verdictOfUsings [] ⟨.plain, [h.root.visitorName], 0⟩] =
        none := rfl
    rw [hglobals, hnone, Option.or_none] at hresolved
    obtain ⟨hencloses, hunshadowed⟩ := hnearest.1 hresolved
    exact ⟨hencloses, hunshadowed⟩

/-! ### The artifacts of a pass -/

namespace Pass

variable {settings : Settings} {c : Compilation} {token : CancellationToken} {h h' : History}
  {report : PassReport}

/-- The trees of a compilation and those of what a pass has handed over. -/
theorem globalUsings_append {trees emitted : List SourceTree}
    (hemitted : ∀ tree ∈ emitted, tree.file.globalUsings = []) :
    (DeclarationTable.ofTrees (trees ++ emitted)).globalUsings =
      (DeclarationTable.ofTrees trees).globalUsings := by
  show (trees ++ emitted).flatMap (·.file.globalUsings) = trees.flatMap (·.file.globalUsings)
  rw [List.flatMap_append, List.flatMap_eq_nil_iff.2 hemitted, List.append_nil]

/-- Among the trees of what a completed pass has handed over are those of the file of every
implementing type and of the file of its root. -/
theorem MayEnd.exists_emitted_trees (hm : MayEnd settings c token h report h')
    (hcompleted : report.outcome = .completed)
    (hnames : ∀ hierarchy ∈ hierarchies settings c, hierarchy.IsWellNamed) :
    ∃ (handed : List Artifact) (emitted : List SourceTree),
      h'.artifacts = h.artifacts ++ handed ∧
      parseAll (handed.map fun a ↦ (a.name, a.text)) = .ok emitted ∧
      (DeclarationTable.ofTrees (c.trees ++ emitted)).globalUsings =
        (DeclarationTable.ofTrees c.trees).globalUsings ∧
      ∀ hierarchy ∈ hierarchies settings c, ∀ p ∈ hierarchy.types,
        ∀ text ∈ [(p.augmentation hierarchy.root).render, hierarchy.rootFile.render],
          ∃ (n : Nat) (tree : SourceTree) (path : String), emitted[n]? = some tree ∧
            (c.trees ++ emitted)[c.trees.length + n]? = some tree ∧
            SourceTree.parse path text = .ok tree := by
  obtain ⟨handed, emitted, hhistory, htexts, hemitted⟩ := hm.exists_emitted hcompleted hnames
  refine ⟨handed, emitted, hhistory, parseAll_eq_ok hemitted,
    globalUsings_append fun tree htree ↦ globalUsings_of_mem hemitted htree, ?_⟩
  intro hierarchy hmem p hp text htext
  have hpending : text ∈ hierarchy.pending.map (·.text) := by
    obtain ⟨htype, hroot⟩ := Hierarchy.mem_pending hp
    rcases List.mem_pair.1 htext with rfl | rfl
    · exact htype
    · exact hroot
  have hhanded : text ∈ handed.map (·.text) := by
    rw [htexts]
    exact List.mem_flatMap.2 ⟨hierarchy, hmem, hpending⟩
  obtain ⟨a, ha, rfl⟩ := List.mem_map.1 hhanded
  obtain ⟨n, tree, htree, hread⟩ := exists_getElem?_of_mem hemitted ha
  refine ⟨n, tree, a.name, htree, ?_, hread.parse⟩
  rw [List.getElem?_append_right (Nat.le_add_right _ _), Nat.add_sub_cancel_left, htree]

/-- **An augmentation sees its contract exactly from the namespace of the root and from inside it,**
as long as no nearer namespace declares the name. Let the artifacts of a completed pass be added to
the compilation. In the file of each implementing type, the name of the contract means the contract
of its root if that is the nearest type with this name, and, unless the compilation has global
directives, only then. -/
theorem resolves_contract_iff_nearest (hm : MayEnd settings c token h report h')
    (hcompleted : report.outcome = .completed)
    (hnames : ∀ hierarchy ∈ hierarchies settings c, hierarchy.IsWellNamed) :
    ∃ (handed : List Artifact) (emitted : List SourceTree),
      h'.artifacts = h.artifacts ++ handed ∧
      parseAll (handed.map fun a ↦ (a.name, a.text)) = .ok emitted ∧
      let table := DeclarationTable.ofTrees (c.trees ++ emitted)
      ∀ hierarchy ∈ hierarchies settings c, ∀ p ∈ hierarchy.types, ∃ n tree d,
        emitted[n]? = some tree ∧ tree.source = (p.augmentation hierarchy.root).render ∧
        tree.types = [d] ∧ ∀ base : BaseEntry,
          base.text = Contract.void.reference hierarchy.root →
          let meaning := table.model.baseType? (c.trees.length + n) d base
          (table.Nearest hierarchy.root p.ns → meaning = some hierarchy.root.contractId) ∧
          ((DeclarationTable.ofTrees c.trees).globalUsings = [] →
            meaning = some hierarchy.root.contractId → table.Nearest hierarchy.root p.ns) := by
  obtain ⟨handed, emitted, hhistory, hparseAll, hglobals, htrees⟩ :=
    hm.exists_emitted_trees hcompleted hnames
  refine ⟨handed, emitted, hhistory, hparseAll, ?_⟩
  intro table hierarchy hmem p hp
  obtain ⟨n, type, path, hn, hnumber, hparse⟩ := htrees hierarchy hmem p hp _ (.head _)
  obtain ⟨m, root, path', hroot, -, hparse'⟩ := htrees hierarchy hmem p hp _ (.tail _ (.head _))
  obtain ⟨d, hd, hmeaning⟩ := (hnames hierarchy hmem).baseType?_contract hp hparse hparse'
    hnumber (List.mem_append_right _ (List.mem_of_getElem? hroot))
  refine ⟨n, type, d, hn, SourceTree.source_of_parse hparse, hd, fun base hbase ↦ ?_⟩
  rw [← hglobals]
  exact hmeaning base hbase

/-- In the sample, all types stand outside namespaces and see the contracts. -/
theorem resolves_contract_iff_nearest_sample :
    ∃ trees, parseAll sample = .ok trees ∧
      let c := Compilation.ofTrees trees
      ∃ (handed : List Artifact) (emitted : List SourceTree),
        (run {} c .never []).2.artifacts = handed ∧
        parseAll (handed.map fun a ↦ (a.name, a.text)) = .ok emitted ∧
        ∀ hierarchy ∈ hierarchies {} c, ∀ p ∈ hierarchy.types, ∃ n tree d,
          emitted[n]? = some tree ∧ tree.types = [d] ∧
          (DeclarationTable.ofTrees (trees ++ emitted)).model.baseType?
              (trees.length + n) d ⟨Contract.void.reference hierarchy.root, ⟨0, 0⟩⟩ =
            some hierarchy.root.contractId := by
  obtain ⟨trees, htrees, hnames, hglobal⟩ : ∃ trees, parseAll sample = .ok trees ∧
      let c := Compilation.ofTrees trees
      (∀ hierarchy ∈ hierarchies {} c, hierarchy.IsWellNamed) ∧
        ∀ hierarchy ∈ hierarchies {} c, hierarchy.root.ns = .global ∧
          ∀ p ∈ hierarchy.types, p.ns = .global :=
    exists_parseAll sample [(_, _), (_, _), (_, _)] rfl (by decide +kernel)
  have hm := mayEnd_run {} (.ofTrees trees) .never []
  obtain ⟨handed, emitted, hhistory, hparseAll, hmeaning⟩ :=
    resolves_contract_iff_nearest hm hm.outcome_of_never hnames
  refine ⟨trees, htrees, handed, emitted, hhistory, hparseAll, fun hierarchy hmem p hp ↦ ?_⟩
  obtain ⟨n, tree, d, hn, -, hd, hsees⟩ := hmeaning hierarchy hmem p hp
  refine ⟨n, tree, d, hn, hd, (hsees ⟨_, ⟨0, 0⟩⟩ rfl).1 ?_⟩
  obtain ⟨hroot, htypes⟩ := hglobal hierarchy hmem
  have hnone : Namespace.enclosing .global = [.global] ∧
      (Namespace.enclosing .global).takeWhile (· ≠ .global) = [] := by decide
  rw [htypes p hp]
  constructor
  · rw [hroot, hnone.1]
    exact List.mem_singleton_self _
  · rw [hroot, hnone.2]
    nofun

/-- A root and a type in namespaces of which neither is inside the other. -/
def foreignSample : List (String × String) :=
  [markerSample,
   ("A.cs", "namespace A; using VisitorGenerator; [VisitorNode] public interface Op;"),
   ("B.cs", "namespace B; using A; public class Do : Op;")]

/-- The type in the other namespace does not see its contract. -/
theorem misses_contract_foreignSample :
    ∃ trees, parseAll foreignSample = .ok trees ∧
      let c := Compilation.ofTrees trees
      ∃ (handed : List Artifact) (emitted : List SourceTree),
        (run {} c .never []).2.artifacts = handed ∧
        parseAll (handed.map fun a ↦ (a.name, a.text)) = .ok emitted ∧
        (hierarchies {} c).map (fun h ↦ (h.root.id, h.types.map (·.id))) =
          [(⟨"A.Op"⟩, [⟨"B.Do"⟩])] ∧
        ∀ hierarchy ∈ hierarchies {} c, ∀ p ∈ hierarchy.types, ∃ n tree d,
          emitted[n]? = some tree ∧ tree.source = (p.augmentation hierarchy.root).render ∧
          tree.types = [d] ∧
          (DeclarationTable.ofTrees (trees ++ emitted)).model.baseType?
              (trees.length + n) d ⟨Contract.void.reference hierarchy.root, ⟨0, 0⟩⟩ ≠
            some hierarchy.root.contractId := by
  obtain ⟨trees, htrees, hids, hnames, hforeign, hdirectives⟩ :
      ∃ trees, parseAll foreignSample = .ok trees ∧
        let c := Compilation.ofTrees trees
        (hierarchies {} c).map (fun h ↦ (h.root.id, h.types.map (·.id))) =
            [(⟨"A.Op"⟩, [⟨"B.Do"⟩])] ∧
          (∀ hierarchy ∈ hierarchies {} c, hierarchy.IsWellNamed) ∧
          (∀ hierarchy ∈ hierarchies {} c, ∀ p ∈ hierarchy.types,
            hierarchy.root.ns ∉ p.ns.enclosing) ∧
          (DeclarationTable.ofTrees trees).globalUsings = [] :=
    exists_parseAll foreignSample [(_, _), (_, _), (_, _)] rfl (by decide +kernel)
  have hm := mayEnd_run {} (.ofTrees trees) .never []
  obtain ⟨handed, emitted, hhistory, hparseAll, hglobals, hemitted⟩ :=
    hm.exists_emitted_trees hm.outcome_of_never hnames
  refine ⟨trees, htrees, handed, emitted, hhistory, hparseAll, hids, ?_⟩
  intro hierarchy hmem p hp
  obtain ⟨n, type, path, hn, hnumber, hparse⟩ := hemitted hierarchy hmem p hp _ (.head _)
  obtain ⟨m, root, path', hroot, -, hparse'⟩ :=
    hemitted hierarchy hmem p hp _ (.tail _ (.head _))
  obtain ⟨d, hd, hmeaning⟩ := (hnames hierarchy hmem).baseType?_contract hp hparse hparse'
    hnumber (List.mem_append_right _ (List.mem_of_getElem? hroot))
  refine ⟨n, type, d, hn, SourceTree.source_of_parse hparse, hd, fun hsees ↦ ?_⟩
  have hnearest := (hmeaning ⟨_, ⟨0, 0⟩⟩ rfl).2 (hglobals.trans hdirectives) hsees
  exact hforeign hierarchy hmem p hp hnearest.encloses

end Pass

end DoubleDispatch
