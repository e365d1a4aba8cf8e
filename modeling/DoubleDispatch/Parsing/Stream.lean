import DoubleDispatch.Parsing.Fault
import DoubleDispatch.Text.Slice

/-!
# Token streams

A parser stands in a stream: it knows the tokens ahead and where the last token it took ended.
The end of the file is never taken, so a stream that has reached it stays there.
-/

namespace DoubleDispatch

/-- The tokens ahead and the end of the last one taken. -/
structure Stream where
  ahead : List Token
  prevEnd : Nat
deriving DecidableEq, Repr, Inhabited

namespace Stream

/-- The number of tokens ahead. -/
def size (s : Stream) : Nat := s.ahead.length

/-- The kind of the next token. -/
def kind (s : Stream) : TokenKind :=
  match s.ahead with
  | t :: _ => t.kind
  | [] => .endOfFile

/-- The kind of the token after the next. -/
def secondKind (s : Stream) : TokenKind :=
  match s.ahead with
  | _ :: t :: _ => t.kind
  | _ => .endOfFile

/-- The span of the next token. -/
def span (s : Stream) : Span :=
  match s.ahead with
  | t :: _ => t.span
  | [] => ⟨s.prevEnd, s.prevEnd⟩

/-- The offset at which the next token starts. -/
def start (s : Stream) : Nat := s.span.start

/-- Takes the next token, unless it is the end of the file. -/
def advance (s : Stream) : Stream :=
  match s.ahead with
  | t :: ts => if t.kind = .endOfFile then s else ⟨ts, t.span.stop⟩
  | [] => s

/-- Takes the next token if it is of the given kind. -/
def eat (s : Stream) (kind : TokenKind) : Stream := if s.kind = kind then s.advance else s

/-- The next token is not what was looked for. -/
def unexpected (s : Stream) (expected : Expectation) : ParseError :=
  .rejected (.unexpected expected s.kind) s.span

/-- Stepping over a token leaves no more of the stream than there was. -/
theorem size_advance_le (s : Stream) : s.advance.size ≤ s.size := by
  unfold advance size
  split
  next h => split <;> simp [h]
  next => exact Nat.le_refl _

/-- Stepping over a token that is not the last leaves less of the stream, which is what the parsers
end by. -/
theorem size_advance_lt {s : Stream} (h : s.kind ≠ .endOfFile) : s.advance.size < s.size := by
  unfold advance size
  unfold kind at h
  split
  next heq => simp_all
  next heq => simp_all

theorem size_eat_le (s : Stream) (kind : TokenKind) : (s.eat kind).size ≤ s.size := by
  unfold eat
  split
  · exact s.size_advance_le
  · exact Nat.le_refl _

/-- A stream whose next token is an identifier has not reached the end. -/
theorem kind_ne_endOfFile_of_name? {s : Stream} {name : String} (h : s.kind.name? = some name) :
    s.kind ≠ .endOfFile := by
  intro he
  rw [he] at h
  cases h

end Stream

/-- A value that was read and the stream behind it. -/
structure Parsed (α : Type) where
  value : α
  rest : Stream
deriving DecidableEq, Repr

/-- If two steps in a row succeed, so did each of them. -/
theorem exists_of_bind_eq_ok {ε α β : Type} {x : Except ε α} {f : α → Except ε β} {b : β}
    (h : x >>= f = .ok b) : ∃ a, x = .ok a ∧ f a = .ok b := by
  cases x with
  | error e => cases h
  | ok a => exact ⟨a, rfl, h⟩

end DoubleDispatch
