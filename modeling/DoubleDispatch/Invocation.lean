import DoubleDispatch.Path

/-!
# Invocations

What a command line asks for, once it has been read.
-/

namespace DoubleDispatch

/-- Which sources a task reads, and how it works on them. -/
structure SourceOptions where
  paths : List Path
  exclude : List String
  semantic : Bool
  parallel : Bool
deriving DecidableEq, Repr, Inhabited

/-- What is to be done with sources. -/
inductive Task where
  /-- Write the artifacts. -/
  | generate (sources : SourceOptions) (output? : Option Path) (clean json : Bool)
  /-- Report the roots and the types that implement them. -/
  | scan (sources : SourceOptions) (json : Bool)
  /-- Print the declaration of the marker. -/
  | marker
deriving DecidableEq, Repr, Inhabited

/-- A run of the program. -/
structure Invocation where
  config? : Option Path
  /-- How often more log lines were asked for. -/
  verbosity : Nat
  printConfig : Bool
  task? : Option Task
deriving DecidableEq, Repr, Inhabited

/-- What a command line comes to. -/
inductive Request where
  | run (i : Invocation)
  /-- A text is asked for in place of a run, such as the version of the program. -/
  | display (text : String)
  /-- The command line is refused. -/
  | refusal (message : String)
deriving DecidableEq, Repr, Inhabited

end DoubleDispatch
