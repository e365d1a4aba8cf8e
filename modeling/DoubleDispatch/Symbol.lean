import DoubleDispatch.Declaration

/-!
# Symbols

A symbol is a type as the whole program knows it. Its id joins the namespace, the name and, for a
generic type, the number of type parameters, so that the partial declarations of one type have one
id.
-/

namespace DoubleDispatch

/-- The namespace of a symbol. -/
inductive Namespace where
  | global
  | named (name : String)
deriving DecidableEq, Repr, Inhabited

namespace Namespace

/-- The namespace with a dotted name; the empty name is the global namespace. -/
def ofName (name : String) : Namespace := if name.isEmpty then global else named name

/-- Whether this is the global namespace. -/
def isGlobal : Namespace → Bool
  | global => true
  | named _ => false

/-- The name, which the global namespace lacks. -/
def name? : Namespace → Option String
  | global => none
  | named name => some name

/-- A name as it is known outside the namespace. -/
def qualify (ns : Namespace) (name : String) : String :=
  match ns with
  | global => name
  | named outer => outer ++ "." ++ name

/-- The namespace one segment further in. -/
def child (ns : Namespace) (segment : String) : Namespace := named (ns.qualify segment)

/-- How a namespace is shown to people. -/
def display : Namespace → String
  | global => "<global namespace>"
  | named name => name

end Namespace

/-- The name of a type with its number of type parameters behind a backquote, if it has any. -/
def arityName (name : String) (arity : Nat) : String :=
  if arity = 0 then name else name ++ "`" ++ toString arity

/-- The identity of a type in the whole program. -/
structure SymbolId where
  text : String
deriving DecidableEq, Repr, Inhabited

/-- The id of the type with the given namespace, name and number of type parameters. -/
def SymbolId.ofParts (ns : Namespace) (name : String) (arity : Nat) : SymbolId :=
  ⟨ns.qualify (arityName name arity)⟩

/-- A declared type. -/
structure Symbol where
  id : SymbolId
  name : String
  ns : Namespace
  kind : TypeKind
  arity : Nat
deriving DecidableEq, Repr, Inhabited

/-- The symbol that a declaration in the given namespace declares. -/
def Symbol.ofDeclaration (ns : Namespace) (d : TypeDeclaration) : Symbol where
  id := .ofParts ns d.name d.arity
  name := d.name
  ns := ns
  kind := d.kind
  arity := d.arity

end DoubleDispatch
