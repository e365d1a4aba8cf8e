/-!
# Spans

A span is a range of byte offsets into a source, from `start` up to but not including `stop`.
-/

namespace DoubleDispatch

/-- A range of byte offsets. A range that runs backwards is empty. -/
structure Span where
  start : Nat
  stop : Nat
deriving DecidableEq, Repr, Inhabited

namespace Span

/-- The smallest span that covers both. -/
def merge (a b : Span) : Span := ⟨min a.start b.start, max a.stop b.stop⟩

/-- The number of bytes covered. -/
def length (s : Span) : Nat := s.stop - s.start

/-- Whether the span covers nothing. -/
def isEmpty (s : Span) : Bool := s.length == 0

end Span

end DoubleDispatch
