import DoubleDispatch.Binding.Model
import DoubleDispatch.Binding.Reference
import DoubleDispatch.Binding.Scope

/-!
# The declaration table

The table of all declarations of a program, and the lookup of names in it. A name is looked for
level by level, from the innermost namespace around a declaration outward. At a level, a type of
its namespace comes before an alias, and an alias before the types that its directives import; two
imports that offer different types leave the name without a meaning.
-/

namespace DoubleDispatch

/-- The declarations of all trees, in the order of the trees and of each source, and the global
using directives. -/
structure DeclarationTable where
  entries : List PlacedDeclaration
  globalUsings : List UsingDirective
deriving Repr, Inhabited

/-- What one level says about a name. -/
inductive Verdict where
  | found (id : SymbolId)
  /-- The name means nothing, and levels further out are not asked. -/
  | nothing
  | undecided
deriving DecidableEq, Repr, Inhabited

/-- The meaning of a name if the level that decides it is the first to do so. -/
def Verdict.first? : List Verdict → Option SymbolId
  | [] => none
  | .found id :: _ => some id
  | .nothing :: _ => none
  | .undecided :: later => first? later

namespace DeclarationTable

/-- The table of the given trees, numbered from zero. -/
def ofTrees (trees : List SourceTree) : DeclarationTable :=
  let globals := trees.flatMap (·.file.globalUsings)
  ⟨trees.zipIdx.flatMap fun (tree, number) ↦ tree.file.placed number globals, globals⟩

/-- The symbol of an id, as its first declaration gives it. -/
def symbol? (table : DeclarationTable) (id : SymbolId) : Option Symbol :=
  (table.entries.find? (·.symbol.id = id)).map (·.symbol)

/-- The ids of the declared types, in the order of their first declarations. -/
def ids (table : DeclarationTable) : List SymbolId :=
  (table.entries.map (·.symbol.id)).eraseDups

/-- The number of declared types; the declarations of a partial type count once. -/
def size (table : DeclarationTable) : Nat := table.ids.length

/-- The id with the given text, if such a type is declared. -/
def lookup? (table : DeclarationTable) (text : String) : Option SymbolId :=
  (table.symbol? ⟨text⟩).map (·.id)

/-- The declaration with its scope, if it is one of the given tree. -/
def get? (table : DeclarationTable) (tree : Nat) (d : TypeDeclaration) :
    Option PlacedDeclaration :=
  (table.entries.find? fun e ↦ e.tree = tree && e.declaration.ordinal = d.ordinal).filter
    (·.symbol.name = d.name)

/-! ### One level -/

/-- The target of the first alias directive with the given name. -/
def aliasTarget? (usings : List UsingDirective) (name : String) : Option String :=
  (usings.find? (·.kind = .alias name)).map (·.target)

/-- The types that the directives of a level import under a name. -/
def imports (table : DeclarationTable) (usings : List UsingDirective) (name : String) :
    List SymbolId :=
  (usings.filter (·.kind = .types)).filterMap fun u ↦ table.lookup? (u.target ++ "." ++ name)

/-- What imported types say about a name: one type, counted once, is its meaning. -/
def verdictOfImports : List SymbolId → Verdict
  | [] => .undecided
  | id :: ids => if ids.all (· = id) then .found id else .nothing

/-- What an alias says about a name whose first segment it is. An alias on its own stands for its
target, which then must exist and take no type arguments from the name. -/
def verdictOfAlias (table : DeclarationTable) (target : String) (rest : List String)
    (arity : Nat) : Verdict :=
  if rest.isEmpty then
    match if arity = 0 then Reference.parse? target else none with
    | some aliased => ((table.lookup? aliased.text).map .found).getD .nothing
    | none => .nothing
  else
    ((table.lookup? (target ++ "." ++ Reference.joined rest arity)).map .found).getD .undecided

/-- What the directives of a level say about a name. -/
def verdictOfUsings (table : DeclarationTable) (usings : List UsingDirective) (r : Reference) :
    Verdict :=
  match r.segments with
  | [] => .undecided
  | first :: rest =>
    match aliasTarget? usings first with
    | some target => table.verdictOfAlias target rest r.arity
    | none => if rest.isEmpty then verdictOfImports (table.imports usings r.text) else .undecided

/-- What a level says about a name. -/
def verdict (table : DeclarationTable) (r : Reference) (level : Level) : Verdict :=
  match r.qualifier with
  | .alias name =>
    match aliasTarget? level.usings name with
    | some target => ((table.lookup? (target ++ "." ++ r.text)).map .found).getD .nothing
    | none => .undecided
  | _ =>
    match table.lookup? (level.ns.qualify r.text) with
    | some id => .found id
    | none => table.verdictOfUsings level.usings r

/-! ### Names -/

/-- The type that a reference means inside the given levels. -/
def resolveReference? (table : DeclarationTable) (levels : List Level) (r : Reference) :
    Option SymbolId :=
  if r.qualifier = .absolute then table.lookup? r.text
  else Verdict.first? (levels.map (table.verdict r))

/-- The type that a written name means at a declaration. -/
def resolve? (table : DeclarationTable) (tree : Nat) (d : TypeDeclaration) (text : String) :
    Option SymbolId :=
  match Reference.parse? text, table.get? tree d with
  | some r, some e => table.resolveReference? e.levels r
  | _, _ => none

/-- The type that an attribute means: its name as written, or with the suffix, but not both if they
differ. -/
def resolveAttribute? (table : DeclarationTable) (tree : Nat) (d : TypeDeclaration)
    (a : Attribute) : Option SymbolId :=
  match table.resolve? tree d a.name, table.resolve? tree d (withAttributeSuffix a.name) with
  | some plain, some suffixed => if plain = suffixed then some plain else none
  | some plain, none => some plain
  | none, suffixed => suffixed

/-- The answers of the table. -/
def model (table : DeclarationTable) : SemanticModel where
  declaredSymbol? tree d := (table.get? tree d).map (·.symbol)
  attributeType? tree d a := table.resolveAttribute? tree d a
  baseType? tree d b := table.resolve? tree d b.text

end DeclarationTable

end DoubleDispatch
