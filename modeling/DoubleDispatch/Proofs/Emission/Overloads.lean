import DoubleDispatch.Emission
import DoubleDispatch.Proofs.Hierarchy.Participants

/-!
# Which overloads clash

A contract has one `Visit` method for each implementing type, and its parameter is written with the
name of the type alone. The types of a hierarchy are told apart by their ids instead, in which the
namespace and the number of type parameters count as well. So the methods are overloads of each
other as long as no two types share their name; two types with one name in different namespaces, or
with different numbers of type parameters, are given the same method.
-/

namespace DoubleDispatch

/-! ### The methods of a contract -/

namespace Contract

theorem map_parameters_declaration (contract : Contract) (h : Hierarchy) :
    (contract.declaration h).methods.map (·.parameters) =
      h.types.map fun p ↦ [⟨p.name, "node"⟩] := by
  rw [declaration, List.map_map]
  rfl

theorem line_visitMethod (contract : Contract) (type : Participant) :
    (contract.visitMethod type).line =
      contract.returnType ++ " Visit(" ++ type.name ++ " node);" := by
  apply String.toList_injective
  simp [visitMethod, Method.line, Layout.spaced, Layout.typeParameterList]

/-- The lines of two visits are the same if the types have the same name. -/
theorem line_visitMethod_inj (contract : Contract) {p q : Participant} :
    (contract.visitMethod p).line = (contract.visitMethod q).line ↔ p.name = q.name := by
  rw [line_visitMethod, line_visitMethod, String.append_left_inj, String.append_right_inj]

end Contract

/-- Where the types have different ids, what shows nothing of a type but its name is different for
all of them exactly if no two types share their name. -/
theorem Hierarchy.nodup_map_iff {h : Hierarchy} (hids : (h.types.map (·.id)).Nodup) {α : Type}
    {f : Participant → α} (hf : ∀ p q, f p = f q ↔ p.name = q.name) :
    (h.types.map f).Nodup ↔ ∀ p ∈ h.types, ∀ q ∈ h.types, p.name = q.name → p.id = q.id := by
  rw [List.nodup_map_iff_inj_on hids.of_map]
  constructor
  · intro hinj p hp q hq hname
    rw [hinj p hp q hq ((hf p q).2 hname)]
  · intro hunique p hp q hq heq
    exact List.inj_on_of_nodup_map hids hp hq (hunique p hp q hq ((hf p q).1 heq))

/-! ### The hierarchies of a pass -/

namespace Pass

/-- **Overloads clash exactly where two implementing types share their name.** Each contract of a
hierarchy has one method for each type. No two of them have the same parameters, or are the same
line, exactly if all types with one name have one id. In a compilation that answers from its own
trees this means one namespace and one number of type parameters. -/
theorem overloads_differ_iff (settings : Settings) (c : Compilation) :
    ∀ hierarchy ∈ hierarchies settings c, ∀ contract : Contract,
      let types := hierarchy.types
      let visits := (contract.declaration hierarchy).methods
      visits.length = types.length ∧
      ((visits.map (·.parameters)).Nodup ↔
        ∀ p ∈ types, ∀ q ∈ types, p.name = q.name → p.id = q.id) ∧
      ((visits.map (·.line)).Nodup ↔ (visits.map (·.parameters)).Nodup) ∧
      ∀ trees, c = .ofTrees trees → (∀ tree ∈ trees, (tree.types.map (·.ordinal)).Nodup) →
        ((visits.map (·.parameters)).Nodup ↔ ∀ p ∈ types, ∀ q ∈ types, p.name = q.name →
          p.ns = q.ns ∧ p.typeParameters.length = q.typeParameters.length) := by
  intro hierarchy hmem contract types visits
  obtain ⟨root, -, rfl⟩ := List.mem_map.1 hmem
  have hfound := c.found_implementors settings.matching root
  have hparameters : (visits.map (·.parameters)).Nodup ↔
      ∀ p ∈ types, ∀ q ∈ types, p.name = q.name → p.id = q.id := by
    rw [contract.map_parameters_declaration]
    exact Hierarchy.nodup_map_iff hfound.nodup fun p q ↦ by simp
  refine ⟨List.length_map _, hparameters, ?_, ?_⟩
  · rw [hparameters]
    show ((types.map contract.visitMethod).map (·.line)).Nodup ↔ _
    rw [List.map_map]
    exact Hierarchy.nodup_map_iff hfound.nodup fun p q ↦ contract.line_visitMethod_inj
  · rintro trees rfl hordinals
    -- Distinct types with one name would have different ids, so one of the two parts differs; the
    -- other way round the id is made from nothing but the name and these two parts.
    constructor
    · intro hnodup p hp q hq hname
      have hid := hparameters.1 hnodup p hp q hq hname
      obtain rfl := List.inj_on_of_nodup_map hfound.nodup hp hq hid
      exact ⟨rfl, rfl⟩
    · intro hunique
      refine hparameters.2 fun p hp q hq hname ↦ ?_
      obtain ⟨hns, harity⟩ := hunique p hp q hq hname
      rw [hfound.id_eq hordinals hp, hfound.id_eq hordinals hq, hns, hname, harity]

/-- A root outside namespaces, a type in one, and what another file says. -/
def shapesSample (other : String) : List (String × String) :=
  [markerSample, ("IShape.cs", "using VisitorGenerator; [VisitorNode] public interface IShape;"),
   ("A.cs", "namespace A; public class Circle : IShape;"), ("B.cs", other)]

/-- Two types with different names have overloads that differ. -/
theorem overloads_differ_iff_shapesSample :
    ∃ trees, parseAll (shapesSample "namespace B; public class Square : IShape;") = .ok trees ∧
      ∃ hierarchy ∈ hierarchies {} (.ofTrees trees),
        hierarchy.types.map (·.id) = [⟨"A.Circle"⟩, ⟨"B.Square"⟩] ∧
        ∀ contract : Contract,
          let visits := (contract.declaration hierarchy).methods
          visits.length = 2 ∧ (visits.map (·.parameters)).Nodup ∧
            (visits.map (·.line)).Nodup := by
  obtain ⟨trees, htrees, hordinals, hierarchy, hmem, hids, hunique⟩ : ∃ trees,
      parseAll (shapesSample "namespace B; public class Square : IShape;") = .ok trees ∧
        (∀ tree ∈ trees, (tree.types.map (·.ordinal)).Nodup) ∧
        ∃ hierarchy ∈ hierarchies {} (.ofTrees trees),
          hierarchy.types.map (·.id) = [⟨"A.Circle"⟩, ⟨"B.Square"⟩] ∧
          ∀ p ∈ hierarchy.types, ∀ q ∈ hierarchy.types, p.name = q.name →
            p.ns = q.ns ∧ p.typeParameters.length = q.typeParameters.length :=
    exists_parseAll _ [(_, _), (_, _), (_, _), (_, _)] rfl (by decide +kernel)
  refine ⟨trees, htrees, hierarchy, hmem, hids, fun contract ↦ ?_⟩
  obtain ⟨hlength, -, hlines, htable⟩ :=
    overloads_differ_iff {} (.ofTrees trees) hierarchy hmem contract
  have hparameters := (htable _ rfl hordinals).2 hunique
  refine ⟨hlength.trans ?_, hparameters, hlines.2 hparameters⟩
  rw [← List.length_map (·.id), hids]
  rfl

/-- Two types with one name are told apart, but both contracts have one method twice. -/
theorem overloads_clash_shapesSample :
    ∃ trees, parseAll (shapesSample "namespace B; public class Circle : IShape;") = .ok trees ∧
      ∃ hierarchy ∈ hierarchies {} (.ofTrees trees),
        hierarchy.types.map (·.id) = [⟨"A.Circle"⟩, ⟨"B.Circle"⟩] ∧
        ∀ contract ∈ Contract.all,
          ¬((contract.declaration hierarchy).methods.map (·.parameters)).Nodup :=
  exists_parseAll _ [(_, _), (_, _), (_, _), (_, _)] rfl (by decide +kernel)

end Pass

end DoubleDispatch
