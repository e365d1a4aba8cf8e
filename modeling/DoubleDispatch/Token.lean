import DoubleDispatch.Source.Span

/-!
# Tokens

What a declaration source is made of: identifiers, the punctuation that delimits headers and
groups, and literals, whose content nothing looks at. Keywords are identifiers; the parser
recognises them by their place.
-/

namespace DoubleDispatch

/-- The kinds of token. -/
inductive TokenKind where
  /-- An identifier or keyword; a verbatim identifier is held without its `@`. -/
  | identifier (name : String)
  /-- A string, character or number. -/
  | literal
  | openBrace
  | closeBrace
  | openParen
  | closeParen
  | openBracket
  | closeBracket
  | less
  | greater
  | comma
  | semicolon
  | colon
  | doubleColon
  | dot
  | equals
  | question
  /-- Any other character. -/
  | punct (c : Char)
  | endOfFile
deriving DecidableEq, Repr, Inhabited

/-- A token and the part of the source it was read from. -/
structure Token where
  kind : TokenKind
  span : Span
deriving DecidableEq, Repr, Inhabited

namespace TokenKind

/-- The text that a token of this kind stands for, where the kind determines it. -/
def spelling? : TokenKind → Option String
  | identifier name => some name
  | literal => none
  | openBrace => some "\x7b"
  | closeBrace => some "\x7d"
  | openParen => some "("
  | closeParen => some ")"
  | openBracket => some "["
  | closeBracket => some "]"
  | less => some "<"
  | greater => some ">"
  | comma => some ","
  | semicolon => some ";"
  | colon => some ":"
  | doubleColon => some "::"
  | dot => some "."
  | equals => some "="
  | question => some "?"
  | punct c => some c.toString
  | endOfFile => none

/-- How messages name a token. -/
def describe (kind : TokenKind) : String :=
  match kind.spelling? with
  | some text => "`" ++ text ++ "`"
  | none => if kind = endOfFile then "end of file" else "literal"

/-- The closing delimiter that an opening one calls for. -/
def closer? : TokenKind → Option TokenKind
  | openBrace => some closeBrace
  | openParen => some closeParen
  | openBracket => some closeBracket
  | _ => none

/-- Whether the token closes a group. -/
def isCloser : TokenKind → Bool
  | closeBrace | closeParen | closeBracket => true
  | _ => false

/-- The name of an identifier. -/
def name? : TokenKind → Option String
  | identifier name => some name
  | _ => none

/-- Whether the token is an identifier. -/
def isIdentifier (kind : TokenKind) : Bool := kind.name?.isSome

/-- Whether the token is the given word. -/
def isWord (kind : TokenKind) (word : String) : Bool := kind == identifier word

end TokenKind

end DoubleDispatch
