import DoubleDispatch.Symbol
import DoubleDispatch.Text.Identifier
import DoubleDispatch.Text.Split

/-!
# References to types

A type name as it is written in a source, taken apart for lookup: what it is qualified with, its
dotted segments and the number of its type arguments. A question mark behind the name is left out,
and a name of any other form (an array, a member of a constructed type) refers to no type.
-/

namespace DoubleDispatch

/-- What stands before the double colon of a reference. -/
inductive Qualifier where
  | plain
  /-- `global::`: the name is complete. -/
  | absolute
  | alias (name : String)
deriving DecidableEq, Repr, Inhabited

/-- A reference to a type. -/
structure Reference where
  qualifier : Qualifier
  segments : List String
  arity : Nat
deriving DecidableEq, Repr, Inhabited

namespace Reference

/-- The number of type arguments in a list of them, found by counting the commas that stand outside
angle brackets and parentheses; none if these do not match. The depth is a natural number and never
overflows, where a signed counter of 32 bits does at `2 ^ 31` open brackets. -/
def argumentCount? (depth count : Nat) : List Char → Option Nat
  | [] => if depth = 0 then some count else none
  | c :: s =>
    if c = '<' || c = '(' then argumentCount? (depth + 1) count s
    else if c = '>' || c = ')' then
      if depth = 0 then none else argumentCount? (depth - 1) count s
    else if c = ',' && depth = 0 then argumentCount? depth (count + 1) s
    else argumentCount? depth count s

/-- The name and the number of type arguments of a text such as `Box<A, B>`. -/
def nameAndArity? (text : List Char) : Option (List Char × Nat) :=
  match Text.splitOnce? ['<'] text with
  | none => some (text, 0)
  | some (name, behind) =>
    match Text.stripSuffix? '>' behind with
    | none => none
    | some arguments => (argumentCount? 0 1 arguments).map fun arity ↦ (name, arity)

/-- The qualifier of a text and what stands behind it. -/
def qualifierAndName (text : List Char) : Qualifier × List Char :=
  match Text.splitOnce? [':', ':'] text with
  | none => (.plain, text)
  | some (before, name) =>
    let word := String.ofList (Text.trim before)
    (if word = "global" then .absolute else .alias word, name)

/-- The text of a type name without white space around it and without a final question mark. -/
def withoutMark (text : List Char) : List Char :=
  let text := Text.trim text
  Text.trimEnd ((Text.stripSuffix? '?' text).getD text)

/-- Reads a type name. -/
def parse? (text : String) : Option Reference :=
  let (qualifier, name) := qualifierAndName (withoutMark text.toList)
  match nameAndArity? name with
  | none => none
  | some (name, arity) =>
    let segments := (Text.split '.' name).map Text.trim
    if segments.all Text.isIdentifier then some ⟨qualifier, segments.map String.ofList, arity⟩
    else none

/-- Segments of a name joined, with the number of type arguments behind them. -/
def joined (segments : List String) (arity : Nat) : String :=
  arityName (".".intercalate segments) arity

/-- The name without its qualifier, as ids are written. -/
def text (r : Reference) : String := joined r.segments r.arity

end Reference

/-- The name of an attribute with the suffix that its type may carry, type arguments kept behind
it. -/
def withAttributeSuffix (name : String) : String :=
  match Text.splitOnce? ['<'] name.toList with
  | some (before, behind) => String.ofList before ++ "Attribute<" ++ String.ofList behind
  | none => name ++ "Attribute"

end DoubleDispatch
