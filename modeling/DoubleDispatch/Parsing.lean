import DoubleDispatch.Parsing.Body
import DoubleDispatch.Source.Location
import DoubleDispatch.Token.Lexer

/-!
# Parsing a source

From the text of a file to its declarations. A source that is not accepted gives a diagnostic with
the place in the file.
-/

namespace DoubleDispatch

/-- The declarations of a source. -/
def SourceFile.parse (source : String) : Except ParseError SourceFile :=
  match tokenize source with
  | .error e => .error (.rejected (.lexical e.fault) e.span)
  | .ok tokens =>
    match Stream.body source.toList false 0 ⟨tokens, 0⟩ with
    | .error e => .error e
    | .ok ⟨body, _⟩ => .ok ⟨body.usings, body.members⟩

/-- A fault with the place in the file at which it was found. -/
structure Diagnostic where
  fault : ParseFault
  span : Span
  location : Location
deriving DecidableEq, Repr, Inhabited

/-- The wording of a diagnostic, place included. -/
def Diagnostic.message (d : Diagnostic) : String :=
  d.location.display ++ ": " ++ d.fault.message

/-- Why a file cannot be read. -/
inductive SourceError where
  | diagnostic (d : Diagnostic)
  /-- The text of a base entry would end before it starts. -/
  | backwardEntry (location : Location)
deriving DecidableEq, Repr, Inhabited

/-- A file that has been parsed. -/
structure SourceTree where
  path : String
  source : String
  file : SourceFile
deriving Repr, Inhabited

namespace SourceTree

/-- The error at its place in a file. -/
def locate (path source : String) : ParseError → SourceError
  | .rejected fault span => .diagnostic ⟨fault, span, .ofOffset path source span.start⟩
  | .backwardEntry span => .backwardEntry (.ofOffset path source span.start)

/-- Reads a file. -/
def parse (path source : String) : Except SourceError SourceTree :=
  match SourceFile.parse source with
  | .ok file => .ok ⟨path, source, file⟩
  | .error e => .error (locate path source e)

/-- The type declarations of the file in source order. -/
def types (tree : SourceTree) : List TypeDeclaration := tree.file.types

/-- The location at which a span starts. -/
def location (tree : SourceTree) (span : Span) : Location :=
  .ofOffset tree.path tree.source span.start

end SourceTree

end DoubleDispatch
