import DoubleDispatch.Declaration
import DoubleDispatch.Token
import DoubleDispatch.Token.Literal

/-!
# Why a source is not accepted

A fault is a cause and a span. One outcome is not a fault of the source: the entry of a base list
that opens with a parenthesis behind a gap has no text, because the range that would hold it ends
before it starts.
-/

namespace DoubleDispatch

/-- What the parser was looking for. -/
inductive Expectation where
  | token (kind : TokenKind)
  | identifier
  | namespaceBody
  | typeName (kind : TypeKind)
  | typeBody (name : String)
  | typeParameter
  | baseType
  | declaration
  | openingDelimiter
deriving DecidableEq, Repr, Inhabited

/-- How messages name what was looked for. -/
def Expectation.describe : Expectation → String
  | token kind => kind.describe
  | identifier => "identifier"
  | namespaceBody => "`\x7b` or `;` after namespace name"
  | typeName kind => "type name after `" ++ kind.keyword ++ "`"
  | typeBody name => "`\x7b` or `;` after `" ++ name ++ "` header"
  | typeParameter => "type parameter name"
  | baseType => "base type"
  | declaration => "declaration"
  | openingDelimiter => "opening delimiter"

/-- Why a source is rejected. -/
inductive ParseFault where
  | lexical (fault : LexicalFault)
  | unexpected (expected : Expectation) (found : TokenKind)
  | unclosedDelimiter
deriving DecidableEq, Repr, Inhabited

/-- The wording of a fault. -/
def ParseFault.message : ParseFault → String
  | lexical fault => fault.message
  | unexpected expected found => "expected " ++ expected.describe ++ ", found " ++ found.describe
  | unclosedDelimiter => "unclosed delimiter"

/-- How parsing ends without a result. -/
inductive ParseError where
  | rejected (fault : ParseFault) (span : Span)
  /-- The text of a base entry would end before it starts. -/
  | backwardEntry (span : Span)
deriving DecidableEq, Repr, Inhabited

end DoubleDispatch
