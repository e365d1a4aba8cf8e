import DoubleDispatch.Proofs.Binding.Placement
import DoubleDispatch.Proofs.Text.Identifier

/-!
# Looking up simple names

A name without dots and qualifiers is looked for in one namespace after the other, from the
innermost outward. Where namespaces have no using directives of their own, the nearest one that
declares the name decides, and only then the directives of the file do
(`DeclarationTable.resolveReference?_around`).
-/

namespace DoubleDispatch

/-! ### Simple names -/

namespace Text

/-- A text without the first character of a mark is not split at it. -/
theorem splitOnce?_eq_none {c : Char} {mark s : List Char} (h : c ∉ s) :
    splitOnce? (c :: mark) s = none := by
  induction s with
  | nil => rfl
  | cons d s ih =>
    rw [List.mem_cons, not_or] at h
    obtain ⟨hd, hs⟩ := h
    rw [splitOnce?, List.isPrefixOf_cons_cons, beq_eq_false_iff_ne.2 hd, ih hs]
    rfl

/-- An identifier has no character that goes on with none. -/
theorem notMem_of_isIdentifier {s : List Char} (h : isIdentifier s) {c : Char}
    (hc : continuesIdentifier c = false) : c ∉ s := by
  intro hmem
  rw [continuesIdentifier_of_isIdentifier h c hmem] at hc
  cases hc

/-- An identifier has no blank around it. -/
theorem trim_of_isIdentifier {s : List Char} (h : isIdentifier s) : trim s = s := by
  have hvisible : ∀ c ∈ s, isBlank c = false := fun c hc ↦
    isBlank_of_continuesIdentifier (continuesIdentifier_of_isIdentifier h c hc)
  exact trim_eq_self (fun c hc ↦ hvisible c (List.mem_of_head? hc))
    fun c hc ↦ hvisible c (List.mem_of_getLast? hc)

theorem trimEnd_of_isIdentifier {s : List Char} (h : isIdentifier s) : trimEnd s = s := by
  have htrim := trim_of_isIdentifier h
  obtain ⟨c, t, rfl, hc, -⟩ := exists_cons_of_isIdentifier h
  have hblank := isBlank_of_continuesIdentifier (continuesIdentifier_of_startsIdentifier hc)
  rwa [trim, List.dropWhile_cons_of_neg (Bool.eq_false_iff.1 hblank)] at htrim

end Text

/-- An identifier refers to a type by its name alone. -/
theorem Reference.parse?_of_isIdentifier {name : String}
    (h : Text.isIdentifier name.toList) : parse? name = some ⟨.plain, [name], 0⟩ := by
  have hnotMem {c : Char} (hc : Text.continuesIdentifier c = false) : c ∉ name.toList :=
    Text.notMem_of_isIdentifier h hc
  have htrim : Text.trim name.toList = name.toList := Text.trim_of_isIdentifier h
  have hmark : Text.stripSuffix? '?' name.toList = none := by
    refine if_neg fun hlast ↦ ?_
    exact hnotMem (c := '?') (by decide) (List.mem_of_getLast? hlast)
  have hqualifier : qualifierAndName (withoutMark name.toList) = (.plain, name.toList) := by
    rw [withoutMark, htrim, hmark, Option.getD_none, Text.trimEnd_of_isIdentifier h,
      qualifierAndName, Text.splitOnce?_eq_none (hnotMem (by decide))]
  have harity : nameAndArity? name.toList = some (name.toList, 0) := by
    rw [nameAndArity?, Text.splitOnce?_eq_none (hnotMem (by decide))]
  rw [parse?, hqualifier]
  dsimp only
  rw [harity]
  dsimp only
  rw [Text.split_of_notMem (hnotMem (by decide)), List.map_singleton, htrim]
  simp [h]

/-! ### Namespaces from the inside out -/

namespace Namespace

/-- The namespaces inside one with the given segments, innermost first. -/
def inside (outer : Namespace) : List String → List Namespace
  | [] => []
  | segment :: segments => inside (outer.child segment) segments ++ [outer.child segment]

/-- A namespace and those around it, innermost first, but for the global one. -/
def chain : Namespace → List Namespace
  | global => []
  | named name => inside global (Level.segments name)

/-- A namespace and those around it, innermost first. -/
def enclosing (ns : Namespace) : List Namespace := ns.chain ++ [global]

example : enclosing (.named "A.B") = [.named "A.B", .named "A", .global] := by decide

/-- A name is qualified differently in different namespaces. -/
theorem qualify_injective (name : String) : Function.Injective (qualify · name) := by
  have hlonger (outer : String) : (name : String) ≠ outer ++ "." ++ name := by
    intro heq
    have hlength := congrArg (fun s : String ↦ s.toList.length) heq
    simp at hlength
    omega
  intro ns ns' heq
  cases ns with
  | global =>
    cases ns' with
    | global => rfl
    | named outer => exact absurd heq (hlonger outer)
  | named outer =>
    cases ns' with
    | global => exact absurd heq.symm (hlonger outer)
    | named outer' =>
      have hlists := congrArg String.toList heq
      simp only [qualify, String.toList_append, List.append_cancel_right_eq] at hlists
      rw [String.toList_injective hlists]

end Namespace

namespace Level

/-- Entering a namespace adds one level for each of its segments. -/
theorem enter_eq (levels : List Level) (segments : List String) :
    enter levels [] segments =
      (Namespace.inside (innermost levels) segments).map (⟨·, []⟩) ++ levels := by
  induction segments generalizing levels with
  | nil => rfl
  | cons segment segments ih =>
    cases segments with
    | nil => rfl
    | cons next segments =>
      have hinner := ih (⟨(innermost levels).child segment, []⟩ :: levels)
      have hinside : (innermost levels).inside (segment :: next :: segments) =
          ((innermost levels).child segment).inside (next :: segments) ++
            [(innermost levels).child segment] := rfl
      rw [hinside, List.map_append, List.append_assoc]
      exact hinner

/-- Around a namespace of a file there are the namespaces from it outward, without directives of
their own, and the file. -/
theorem around_eq (ns : Namespace) {file : Level} (hfile : file.ns = .global) :
    around ns file = ns.chain.map (⟨·, []⟩) ++ [file] := by
  cases ns with
  | global => rfl
  | named name =>
    have hinnermost : innermost [file] = .global := hfile
    rw [around, enter_eq, hinnermost]
    rfl

end Level

/-! ### The nearest declaration -/

namespace DeclarationTable

variable {table : DeclarationTable}

/-- A base entry is bound as its text is resolved. -/
theorem baseType?_model (table : DeclarationTable) (number : Nat) (d : TypeDeclaration)
    (base : BaseEntry) :
    table.model.baseType? number d base = table.resolve? number d base.text := by
  rw [model]

/-- A name that is found is its own symbol. -/
theorem lookup?_eq_some {text : String} {id : SymbolId} (h : table.lookup? text = some id) :
    id = ⟨text⟩ := by
  obtain ⟨symbol, hsymbol, rfl⟩ := Option.map_eq_some_iff.1 h
  obtain ⟨e, he, rfl⟩ := Option.map_eq_some_iff.1 hsymbol
  simpa using List.find?_some he

/-- The symbol of a declaration is found by its text. -/
theorem lookup?_of_mem {e : PlacedDeclaration} (he : e ∈ table.entries) :
    table.lookup? e.symbol.id.text = some e.symbol.id := by
  cases hlookup : table.lookup? e.symbol.id.text with
  | none =>
    rw [lookup?, symbol?, Option.map_map, Option.map_eq_none_iff] at hlookup
    simpa using List.find?_eq_none.1 hlookup e he
  | some id => rw [lookup?_eq_some hlookup]

/-- A level without directives decides for what its namespace declares. -/
theorem verdict_plain (table : DeclarationTable) (name : String) (ns : Namespace) :
    table.verdict ⟨.plain, [name], 0⟩ ⟨ns, []⟩ =
      ((table.lookup? (ns.qualify name)).map .found).getD .undecided := by
  have htext : (Reference.mk .plain [name] 0).text = name := rfl
  rw [verdict, htext]
  cases table.lookup? (ns.qualify name) <;> rfl

/-- The first level that decides is among the first ones, or else among the later ones. -/
theorem first?_map_append {α : Type} (f : α → Option SymbolId) (as : List α)
    (later : List Verdict) :
    Verdict.first? (as.map (fun a ↦ ((f a).map .found).getD .undecided) ++ later) =
      (as.findSome? f).or (Verdict.first? later) := by
  induction as with
  | nil => rfl
  | cons a as ih =>
    cases ha : f a with
    | none => simp [ha, Verdict.first?, ih]
    | some id => simp [ha, Verdict.first?]

/-- **The nearest declaration of a simple name decides**, and only then the level of the file. -/
theorem resolveReference?_around (table : DeclarationTable) (name : String) (ns : Namespace)
    {file : Level} (hfile : file.ns = .global) :
    table.resolveReference? (Level.around ns file) ⟨.plain, [name], 0⟩ =
      (ns.enclosing.findSome? fun outer ↦ table.lookup? (outer.qualify name)).or
        (Verdict.first? [table.verdictOfUsings file.usings ⟨.plain, [name], 0⟩]) := by
  have hfileVerdict : Verdict.first? [table.verdict ⟨.plain, [name], 0⟩ file] =
      (table.lookup? (Namespace.global.qualify name)).or
        (Verdict.first? [table.verdictOfUsings file.usings ⟨.plain, [name], 0⟩]) := by
    have htext : (Reference.mk .plain [name] 0).text = name := rfl
    rw [verdict, hfile, htext]
    cases table.lookup? (Namespace.global.qualify name) <;> rfl
  -- A level without directives either finds the name or leaves it to the next one.
  have hchain : (ns.chain.map (⟨·, []⟩)).map (table.verdict ⟨.plain, [name], 0⟩) =
      ns.chain.map fun outer ↦
        ((table.lookup? (outer.qualify name)).map .found).getD .undecided := by
    rw [List.map_map]
    exact List.map_congr_left fun outer _ ↦ table.verdict_plain name outer
  rw [resolveReference?, if_neg nofun, Level.around_eq ns hfile, List.map_append, hchain,
    List.map_singleton, first?_map_append, hfileVerdict, Namespace.enclosing,
    List.findSome?_append, List.findSome?_singleton, Option.or_assoc]

/-- The type of a namespace that declares a name is the nearest one if the namespace is among those
that are asked, and none before it declares the name. -/
theorem findSome?_eq_some_iff {name : String} {ns : Namespace}
    (hns : table.lookup? (ns.qualify name) = some ⟨ns.qualify name⟩) (asked : List Namespace) :
    asked.findSome? (fun outer ↦ table.lookup? (outer.qualify name)) = some ⟨ns.qualify name⟩ ↔
      ns ∈ asked ∧ ∀ outer ∈ asked.takeWhile (· ≠ ns),
        table.lookup? (outer.qualify name) = none := by
  induction asked with
  | nil => simp
  | cons first asked ih =>
    by_cases hfirst : first = ns
    · subst hfirst
      simp [hns]
    · have hne : ns ≠ first := Ne.symm hfirst
      cases hlookup : table.lookup? (first.qualify name) with
      | none => simp [hlookup, hfirst, hne, ih]
      | some id =>
        have hid : id ≠ ⟨ns.qualify name⟩ := by
          rw [lookup?_eq_some hlookup]
          exact fun heq ↦ hfirst (Namespace.qualify_injective name (congrArg SymbolId.text heq))
        simp [hlookup, hfirst, hid]

end DeclarationTable

end DoubleDispatch
