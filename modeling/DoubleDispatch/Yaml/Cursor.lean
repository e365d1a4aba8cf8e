import DoubleDispatch.Yaml.Quoted

/-!
# Moving through a YAML document

A cursor is a place in a document: the column, and the text from there on. Between two tokens there
may be blanks, line breaks and comments.
-/

namespace DoubleDispatch.Yaml

/-- A place in a document. -/
structure Cursor where
  column : Nat
  rest : List Char
deriving Repr, Inhabited

namespace Cursor

/-- Whether a text is at its end, or goes on with a blank or a line break. -/
def isBreakAhead : List Char → Bool
  | [] => true
  | c :: _ => isSpace c || c = '\n'

/-- The cursor at the next token, and whether a line break was passed. Unless tabs may separate
tokens everywhere, they may not indent a line. -/
def skip (tabs : Bool) (column : Nat) : List Char → Bool → Cursor × Bool
  | [], crossed => (⟨column, []⟩, crossed)
  | c :: s, crossed =>
    if c = ' ' ∨ (c = '\t' ∧ (tabs ∨ !crossed)) then skip tabs (column + 1) s crossed
    else if c = '\n' then skip tabs 0 s true
    else if c = '#' then skipComment tabs s crossed
    else (⟨column, c :: s⟩, crossed)
where
  /-- The cursor at the next token behind a comment. -/
  skipComment (tabs : Bool) : List Char → Bool → Cursor × Bool
    | [], crossed => (⟨0, []⟩, crossed)
    | c :: s, crossed => if c = '\n' then skip tabs 0 s true else skipComment tabs s crossed

/-- The text behind the next token's blanks inside brackets. -/
def skipInside (s : List Char) : List Char := (skip true 0 s false).1.rest

/-- The cursor at the first token of the next line, if nothing more stands on this one. -/
def finishLine? (s : List Char) : Option Cursor :=
  match skip false 0 s false with
  | (c, crossed) => if crossed || c.rest.isEmpty then some c else none

end Cursor

end DoubleDispatch.Yaml
