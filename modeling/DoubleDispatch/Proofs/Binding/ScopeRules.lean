import DoubleDispatch.Proofs.Binding.Identity
import DoubleDispatch.Proofs.Binding.TypeName

/-!
# The rules of scope

The meaning of a type name is what the first level around a declaration says that decides it.
`Level.Decides` says when a level does: a declared type of its namespace comes first, then an alias
directive, then what the directives import. A name binds by these rules and no others
(`DeclarationTable.decides_iff`, `Verdict.first?_map_eq_some_iff`).
-/

namespace DoubleDispatch

/-- The first of the alias directives with this name has this target. -/
def FirstAlias (usings : List UsingDirective) (name target : String) : Prop :=
  ∃ before u behind, usings = before ++ u :: behind ∧ (∀ v ∈ before, v.kind ≠ .alias name) ∧
    u.kind = .alias name ∧ u.target = target

namespace DeclarationTable

variable {table table' : DeclarationTable}

/-- A type with this id is declared somewhere in the program. -/
def Declares (table : DeclarationTable) (id : SymbolId) : Prop :=
  ∃ e ∈ table.entries, e.symbol.id = id

/-- A name is found exactly if it is declared. -/
theorem lookup?_eq_some_iff {text : String} {id : SymbolId} :
    table.lookup? text = some id ↔ id = ⟨text⟩ ∧ table.Declares ⟨text⟩ := by
  constructor
  · intro h
    obtain rfl := lookup?_eq_some h
    obtain ⟨symbol, hsymbol, hid⟩ := Option.map_eq_some_iff.1 h
    obtain ⟨e, he, rfl⟩ := Option.map_eq_some_iff.1 hsymbol
    exact ⟨rfl, e, List.mem_of_find?_eq_some he, hid⟩
  · rintro ⟨rfl, e, he, hid⟩
    have hlookup := lookup?_of_mem he
    rwa [hid] at hlookup

/-- A name is not found exactly if it is not declared. -/
theorem lookup?_eq_none_iff {text : String} :
    table.lookup? text = none ↔ ¬table.Declares ⟨text⟩ := by
  constructor
  · intro h hdeclares
    rw [lookup?_eq_some_iff.2 ⟨rfl, hdeclares⟩] at h
    cases h
  · intro h
    cases hlookup : table.lookup? text with
    | none => rfl
    | some id => exact absurd (lookup?_eq_some_iff.1 hlookup).2 h

/-! ### What directives say -/

/-- A directive imports the declared type with this id under the name. -/
def Imports (table : DeclarationTable) (usings : List UsingDirective) (name : String)
    (id : SymbolId) : Prop :=
  table.Declares id ∧ ∃ u ∈ usings, u.kind = .types ∧ id.text = u.target ++ "." ++ name

/-- What is imported as a name is what directives import as it. -/
theorem mem_imports_iff {usings : List UsingDirective} {name : String} {id : SymbolId} :
    id ∈ table.imports usings name ↔ table.Imports usings name id := by
  simp only [imports, List.mem_filterMap, List.mem_filter, decide_eq_true_eq, lookup?_eq_some_iff]
  constructor
  · rintro ⟨u, ⟨hu, hkind⟩, rfl, hdeclares⟩
    exact ⟨hdeclares, u, hu, hkind, rfl⟩
  · rintro ⟨hdeclares, u, hu, hkind, htext⟩
    obtain rfl : id = ⟨u.target ++ "." ++ name⟩ := congrArg SymbolId.mk htext
    exact ⟨u, ⟨hu, hkind⟩, rfl, hdeclares⟩

/-- The directives of a level decide a type name with the given segments and number of type
arguments: they give it a type, or leave it without one. -/
inductive UsingsDecide (table : DeclarationTable) (usings : List UsingDirective) (first : String) :
    List String → Nat → Option SymbolId → Prop
  | liveAlias {target : String} {aliased : Reference} (halias : FirstAlias usings first target)
      (hread : Reference.parse? target = some aliased)
      (h : table.Declares ⟨aliased.text⟩) :
    UsingsDecide table usings first [] 0 (some ⟨aliased.text⟩)
  /-- An alias on its own that stands for no declared type, or has type arguments behind it. -/
  | deadAlias {target : String} {arity : Nat} (halias : FirstAlias usings first target)
      (h : arity = 0 → ∀ aliased, Reference.parse? target = some aliased →
        ¬table.Declares ⟨aliased.text⟩) :
    UsingsDecide table usings first [] arity none
  | aliasMember {target : String} {rest : List String} {arity : Nat}
      (halias : FirstAlias usings first target) (hrest : rest ≠ [])
      (h : table.Declares ⟨target ++ "." ++ Reference.joined rest arity⟩) :
    UsingsDecide table usings first rest arity
      (some ⟨target ++ "." ++ Reference.joined rest arity⟩)
  | imported {arity : Nat} {id : SymbolId} (hnone : ∀ u ∈ usings, u.kind ≠ .alias first)
      (h : table.Imports usings (Reference.joined [first] arity) id)
      (hall : ∀ other, table.Imports usings (Reference.joined [first] arity) other → other = id) :
    UsingsDecide table usings first [] arity (some id)
  | ambiguous {arity : Nat} {id other : SymbolId} (hnone : ∀ u ∈ usings, u.kind ≠ .alias first)
      (h : table.Imports usings (Reference.joined [first] arity) id)
      (hother : table.Imports usings (Reference.joined [first] arity) other) (hne : other ≠ id) :
    UsingsDecide table usings first [] arity none

end DeclarationTable

/-- **The rules of scope.** A level decides a type name: a declared type of its namespace is the
meaning of the name, and otherwise its directives may decide. -/
inductive Level.Decides (table : DeclarationTable) (level : Level) (first : String)
    (rest : List String) (arity : Nat) : Option SymbolId → Prop
  | declared (h : table.Declares ⟨level.ns.qualify (Reference.joined (first :: rest) arity)⟩) :
    Decides table level first rest arity
      (some ⟨level.ns.qualify (Reference.joined (first :: rest) arity)⟩)
  | usings {answer : Option SymbolId}
      (hns : ¬table.Declares ⟨level.ns.qualify (Reference.joined (first :: rest) arity)⟩)
      (h : table.UsingsDecide level.usings first rest arity answer) :
    Decides table level first rest arity answer

/-- A meaning is always a declared type. -/
theorem Level.Decides.declares {table : DeclarationTable} {level : Level} {first : String}
    {rest : List String} {arity : Nat} {id : SymbolId}
    (h : level.Decides table first rest arity (some id)) : table.Declares id := by
  cases h with
  | declared h => exact h
  | usings _ h =>
    cases h with
    | liveAlias _ _ h => exact h
    | aliasMember _ _ h => exact h
    | imported _ h _ => exact h.1

/-- What a level that decides says. -/
def Verdict.ofAnswer : Option SymbolId → Verdict
  | some id => .found id
  | none => .nothing

namespace DeclarationTable

variable {table table' : DeclarationTable} {usings usings' : List UsingDirective} {first : String}
  {rest : List String} {arity : Nat} {answer : Option SymbolId}

/-- The target of an alias is that of the first directive that declares it. -/
theorem aliasTarget?_eq_some_iff {target : String} :
    aliasTarget? usings first = some target ↔ FirstAlias usings first target := by
  constructor
  · intro h
    obtain ⟨u, hu, rfl⟩ := Option.map_eq_some_iff.1 h
    obtain ⟨hkind, before, behind, rfl, hbefore⟩ := List.find?_eq_some_iff_append.1 hu
    exact ⟨before, u, behind, rfl, by simpa using hbefore, by simpa using hkind, rfl⟩
  · rintro ⟨before, u, behind, rfl, hbefore, hkind, rfl⟩
    refine Option.map_eq_some_iff.2 ⟨u, List.find?_eq_some_iff_append.2 ⟨?_, ?_⟩, rfl⟩
    · simpa using hkind
    · exact ⟨before, behind, rfl, by simpa using hbefore⟩

/-- There is no target exactly if no directive declares the alias. -/
theorem aliasTarget?_eq_none_iff :
    aliasTarget? usings first = none ↔ ∀ u ∈ usings, u.kind ≠ .alias first := by
  rw [aliasTarget?, Option.map_eq_none_iff, List.find?_eq_none]
  simp

/-- Imports find a symbol if they are all this one. -/
theorem verdictOfImports_eq_found_iff {ids : List SymbolId} {id : SymbolId} :
    verdictOfImports ids = .found id ↔ id ∈ ids ∧ ∀ other ∈ ids, other = id := by
  cases ids with
  | nil => simp [verdictOfImports]
  | cons first later =>
    rw [verdictOfImports]
    split
    next hall =>
      have hall : ∀ other ∈ later, other = first := by simpa using hall
      constructor
      · rintro ⟨⟩
        exact ⟨List.mem_cons_self, List.forall_mem_cons.2 ⟨rfl, hall⟩⟩
      · rintro ⟨-, hsame⟩
        rw [hsame first List.mem_cons_self]
    next hall =>
      refine ⟨Verdict.noConfusion, fun ⟨_, hsame⟩ ↦ absurd ?_ hall⟩
      obtain ⟨rfl, hlater⟩ := List.forall_mem_cons.1 hsame
      simpa using hlater

/-- Imports decide for nothing if two of them differ. -/
theorem verdictOfImports_eq_nothing_iff {ids : List SymbolId} :
    verdictOfImports ids = .nothing ↔ ∃ id ∈ ids, ∃ other ∈ ids, other ≠ id := by
  cases ids with
  | nil => simp [verdictOfImports]
  | cons first later =>
    rw [verdictOfImports]
    split
    next hall =>
      have hall : ∀ other ∈ first :: later, other = first := by simpa using hall
      refine ⟨Verdict.noConfusion, fun ⟨id, hid, other, hother, hne⟩ ↦ absurd ?_ hne⟩
      rw [hall id hid, hall other hother]
    next hall =>
      refine ⟨fun _ ↦ ⟨first, List.mem_cons_self, ?_⟩, fun _ ↦ rfl⟩
      obtain ⟨other, hother, hne⟩ : ∃ other ∈ later, other ≠ first := by simpa using hall
      exact ⟨other, List.mem_cons_of_mem _ hother, hne⟩

/-- An alias by itself finds the type that its target names, if that is declared. -/
theorem verdictOfAlias_nil_eq_found_iff {target : String} {id : SymbolId} :
    table.verdictOfAlias target [] arity = .found id ↔ arity = 0 ∧
      ∃ aliased, Reference.parse? target = some aliased ∧ id = ⟨aliased.text⟩ ∧
        table.Declares ⟨aliased.text⟩ := by
  rw [verdictOfAlias, if_pos List.isEmpty_nil]
  by_cases harity : arity = 0
  · rw [if_pos harity]
    cases Reference.parse? target with
    | none => simp [harity]
    | some aliased =>
      dsimp only
      cases hlookup : table.lookup? aliased.text with
      | none =>
        have hnot := lookup?_eq_none_iff.1 hlookup
        simp [hnot]
      | some other =>
        obtain ⟨rfl, hdeclares⟩ := lookup?_eq_some_iff.1 hlookup
        simp [harity, hdeclares, eq_comm]
  · simp [harity]

/-- An alias by itself always decides. -/
theorem verdictOfAlias_nil_ne_undecided {target : String} :
    table.verdictOfAlias target [] arity ≠ .undecided := by
  rw [verdictOfAlias, if_pos List.isEmpty_nil]
  split
  next aliased _ => cases table.lookup? aliased.text <;> exact Verdict.noConfusion
  next => exact Verdict.noConfusion

/-- An alias by itself decides for nothing if its target names no declared type. -/
theorem verdictOfAlias_nil_eq_nothing_iff {target : String} :
    table.verdictOfAlias target [] arity = .nothing ↔ (arity = 0 →
      ∀ aliased, Reference.parse? target = some aliased → ¬table.Declares ⟨aliased.text⟩) := by
  cases hverdict : table.verdictOfAlias target [] arity with
  | undecided => exact absurd hverdict verdictOfAlias_nil_ne_undecided
  | nothing =>
    refine ⟨fun _ harity aliased hread hdeclares ↦ ?_, fun _ ↦ rfl⟩
    rw [verdictOfAlias_nil_eq_found_iff.2 ⟨harity, aliased, hread, rfl, hdeclares⟩] at hverdict
    cases hverdict
  | found id =>
    obtain ⟨harity, aliased, hread, -, hdeclares⟩ := verdictOfAlias_nil_eq_found_iff.1 hverdict
    exact ⟨Verdict.noConfusion, fun h ↦ absurd hdeclares (h harity aliased hread)⟩

/-- An alias before further names decides only for what is declared behind its target. -/
theorem verdictOfAlias_eq_ofAnswer_iff {target : String} (hrest : rest ≠ []) :
    table.verdictOfAlias target rest arity = .ofAnswer answer ↔
      answer = some ⟨target ++ "." ++ Reference.joined rest arity⟩ ∧
        table.Declares ⟨target ++ "." ++ Reference.joined rest arity⟩ := by
  rw [verdictOfAlias, if_neg (by simpa using hrest)]
  cases hlookup : table.lookup? (target ++ "." ++ Reference.joined rest arity) with
  | none =>
    have hnot := lookup?_eq_none_iff.1 hlookup
    cases answer <;> simp [Verdict.ofAnswer, hnot]
  | some id =>
    obtain ⟨rfl, hdeclares⟩ := lookup?_eq_some_iff.1 hlookup
    cases answer <;> simp [Verdict.ofAnswer, hdeclares, eq_comm]

/-- Where an alias is declared, it decides alone. -/
theorem verdictOfUsings_of_alias {target : String} (h : aliasTarget? usings first = some target) :
    table.verdictOfUsings usings ⟨.plain, first :: rest, arity⟩ =
      table.verdictOfAlias target rest arity := by
  rw [verdictOfUsings]
  dsimp only
  rw [h]

/-- Without an alias, imports decide for a name that is not qualified. -/
theorem verdictOfUsings_of_noAlias (h : aliasTarget? usings first = none) :
    table.verdictOfUsings usings ⟨.plain, first :: rest, arity⟩ =
      if rest.isEmpty then
        verdictOfImports (table.imports usings (Reference.joined (first :: rest) arity))
      else .undecided := by
  rw [verdictOfUsings]
  dsimp only
  rw [h]
  rfl

/-- The directives of a level say what the rules say. -/
theorem usingsDecide_iff : table.UsingsDecide usings first rest arity answer ↔
    table.verdictOfUsings usings ⟨.plain, first :: rest, arity⟩ = .ofAnswer answer := by
  constructor
  · intro h
    cases h with
    | liveAlias halias hread h =>
      rw [verdictOfUsings_of_alias (aliasTarget?_eq_some_iff.2 halias)]
      exact verdictOfAlias_nil_eq_found_iff.2 ⟨rfl, _, hread, rfl, h⟩
    | deadAlias halias h =>
      rw [verdictOfUsings_of_alias (aliasTarget?_eq_some_iff.2 halias)]
      exact verdictOfAlias_nil_eq_nothing_iff.2 h
    | aliasMember halias hrest h =>
      rw [verdictOfUsings_of_alias (aliasTarget?_eq_some_iff.2 halias)]
      exact (verdictOfAlias_eq_ofAnswer_iff hrest).2 ⟨rfl, h⟩
    | imported hnone h hall =>
      rw [verdictOfUsings_of_noAlias (aliasTarget?_eq_none_iff.2 hnone)]
      exact verdictOfImports_eq_found_iff.2
        ⟨mem_imports_iff.2 h, fun other hother ↦ hall other (mem_imports_iff.1 hother)⟩
    | ambiguous hnone h hother hne =>
      rw [verdictOfUsings_of_noAlias (aliasTarget?_eq_none_iff.2 hnone)]
      exact verdictOfImports_eq_nothing_iff.2
        ⟨_, mem_imports_iff.2 h, _, mem_imports_iff.2 hother, hne⟩
  · intro h
    cases htarget : aliasTarget? usings first with
    | some target =>
      have halias := aliasTarget?_eq_some_iff.1 htarget
      rw [verdictOfUsings_of_alias htarget] at h
      cases rest with
      | nil =>
        cases answer with
        | some id =>
          obtain ⟨rfl, aliased, hread, rfl, hdeclares⟩ := verdictOfAlias_nil_eq_found_iff.1 h
          exact .liveAlias halias hread hdeclares
        | none => exact .deadAlias halias (verdictOfAlias_nil_eq_nothing_iff.1 h)
      | cons second later =>
        obtain ⟨rfl, hdeclares⟩ := (verdictOfAlias_eq_ofAnswer_iff (List.cons_ne_nil _ _)).1 h
        exact .aliasMember halias (List.cons_ne_nil _ _) hdeclares
    | none =>
      have hnone := aliasTarget?_eq_none_iff.1 htarget
      rw [verdictOfUsings_of_noAlias htarget] at h
      cases rest with
      | nil =>
        cases answer with
        | some id =>
          obtain ⟨hmem, hall⟩ := verdictOfImports_eq_found_iff.1 h
          exact .imported hnone (mem_imports_iff.1 hmem)
            fun other hother ↦ hall other (mem_imports_iff.2 hother)
        | none =>
          obtain ⟨id, hid, other, hother, hne⟩ := verdictOfImports_eq_nothing_iff.1 h
          exact .ambiguous hnone (mem_imports_iff.1 hid) (mem_imports_iff.1 hother) hne
      | cons second later => cases answer <;> cases h

/-- A declared type of the namespace decides before any directive. -/
theorem verdict_of_lookup? {level : Level} {id : SymbolId}
    (h : table.lookup? (level.ns.qualify (Reference.joined (first :: rest) arity)) = some id) :
    table.verdict ⟨.plain, first :: rest, arity⟩ level = .found id := by
  rw [verdict]
  dsimp only [Reference.text]
  rw [h]

/-- Without such a type, the directives decide. -/
theorem verdict_of_lookup?_eq_none {level : Level}
    (h : table.lookup? (level.ns.qualify (Reference.joined (first :: rest) arity)) = none) :
    table.verdict ⟨.plain, first :: rest, arity⟩ level =
      table.verdictOfUsings level.usings ⟨.plain, first :: rest, arity⟩ := by
  rw [verdict]
  dsimp only [Reference.text]
  rw [h]

/-- **A level says what the rules say.** -/
theorem decides_iff {level : Level} : level.Decides table first rest arity answer ↔
    table.verdict ⟨.plain, first :: rest, arity⟩ level = .ofAnswer answer := by
  constructor
  · intro h
    cases h with
    | declared h => exact verdict_of_lookup? (lookup?_eq_some_iff.2 ⟨rfl, h⟩)
    | usings hns h =>
      rw [verdict_of_lookup?_eq_none (lookup?_eq_none_iff.2 hns)]
      exact usingsDecide_iff.1 h
  · intro h
    cases hlookup : table.lookup? (level.ns.qualify (Reference.joined (first :: rest) arity)) with
    | some id =>
      rw [verdict_of_lookup? hlookup] at h
      obtain ⟨rfl, hdeclares⟩ := lookup?_eq_some_iff.1 hlookup
      cases answer with
      | some id => cases h; exact .declared hdeclares
      | none => cases h
    | none =>
      rw [verdict_of_lookup?_eq_none hlookup] at h
      exact .usings (lookup?_eq_none_iff.1 hlookup) (usingsDecide_iff.2 h)

end DeclarationTable

/-! ### The first level that decides -/

namespace Verdict

variable {α : Type} {f : α → Verdict}

/-- A verdict is known by the answers it gives. -/
theorem eq_of_ofAnswer_iff {v w : Verdict}
    (h : ∀ answer, v = ofAnswer answer ↔ w = ofAnswer answer) : v = w := by
  cases v with
  | found id => exact ((h (some id)).1 rfl).symm
  | nothing => exact ((h none).1 rfl).symm
  | undecided =>
    cases w with
    | found id => exact (h (some id)).2 rfl
    | nothing => exact (h none).2 rfl
    | undecided => rfl

theorem exists_ofAnswer_iff {v : Verdict} : (∃ answer, v = ofAnswer answer) ↔ v ≠ .undecided := by
  cases v with
  | found id => exact ⟨fun _ ↦ Verdict.noConfusion, fun _ ↦ ⟨some id, rfl⟩⟩
  | nothing => exact ⟨fun _ ↦ Verdict.noConfusion, fun _ ↦ ⟨none, rfl⟩⟩
  | undecided =>
    refine ⟨fun ⟨answer, h⟩ ↦ ?_, fun h ↦ absurd rfl h⟩
    cases answer <;> cases h

/-- The first level that decides gives the meaning. -/
theorem first?_map_eq_some_iff {as : List α} {id : SymbolId} :
    first? (as.map f) = some id ↔ ∃ inner a outer, as = inner ++ a :: outer ∧
      (∀ b ∈ inner, f b = .undecided) ∧ f a = .found id := by
  induction as with
  | nil => simp [first?]
  | cons a as ih =>
    by_cases hundecided : f a = .undecided
    · rw [List.map_cons, hundecided, first?, ih]
      constructor
      · rintro ⟨inner, b, outer, rfl, hinner, hb⟩
        exact ⟨a :: inner, b, outer, rfl, List.forall_mem_cons.2 ⟨hundecided, hinner⟩, hb⟩
      · rintro ⟨_ | ⟨a', inner⟩, b, outer, heq, hinner, hb⟩
        · cases heq
          rw [hundecided] at hb
          cases hb
        · cases heq
          exact ⟨inner, b, outer, rfl, fun c hc ↦ hinner c (List.mem_cons_of_mem _ hc), hb⟩
    · -- The first level decides, so it is the only one that can have none but undecided ones
      -- before it.
      have hfirst : first? (List.map f (a :: as)) = some id ↔ f a = .found id := by
        rw [List.map_cons]
        cases ha : f a with
        | found other => simp [first?]
        | nothing => simp [first?]
        | undecided => exact absurd ha hundecided
      rw [hfirst]
      constructor
      · exact fun ha ↦ ⟨[], a, as, rfl, by simp, ha⟩
      · rintro ⟨_ | ⟨a', inner⟩, b, outer, heq, hinner, hb⟩
        · cases heq
          exact hb
        · cases heq
          exact absurd (hinner a List.mem_cons_self) hundecided

/-- Levels behind one that decides are not asked. -/
theorem first?_append_of_mem {front later : List Verdict} (h : ∃ v ∈ front, v ≠ .undecided) :
    first? (front ++ later) = first? front := by
  induction front with
  | nil => simp at h
  | cons v front ih =>
    cases v with
    | found id => rfl
    | nothing => rfl
    | undecided =>
      obtain ⟨w, hw, hne⟩ := h
      rcases List.mem_cons.1 hw with rfl | hw
      · exact absurd rfl hne
      · exact ih ⟨w, hw, hne⟩

end Verdict

end DoubleDispatch
