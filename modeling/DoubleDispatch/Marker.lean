import DoubleDispatch.Artifact
import DoubleDispatch.Symbol

/-!
# The marker

The attribute that marks an interface as the root of a hierarchy. Its declaration is generated
too, so that sources can use it without a library.
-/

namespace DoubleDispatch.Marker

/-- The simple name of the attribute, which is also the base of its file name. -/
def name : String := "VisitorNodeAttribute"

/-- The id of the attribute. -/
def id : SymbolId := .ofParts (.named "VisitorGenerator") name 0

/-- The declaration of the attribute, line by line. -/
def lines : List String := [
  "using System;",
  "namespace VisitorGenerator",
  "\x7b",
  "    [AttributeUsage(AttributeTargets.Interface, Inherited = false, AllowMultiple = false)]",
  "    [System.Diagnostics.Conditional(\"VisitorSourceGenerator_DEBUG\")]",
  "    sealed class VisitorNodeAttribute : Attribute",
  "    \x7b",
  "        public VisitorNodeAttribute()",
  "        \x7b",
  "        \x7d",
  "    \x7d",
  "\x7d"]

/-- The source that declares the attribute. -/
def source : String := String.join (lines.map (· ++ "\n"))

/-- The artifact that declares the attribute. -/
def artifact (extension : String) : Artifact := ⟨name ++ ".g." ++ extension, source⟩

end DoubleDispatch.Marker
