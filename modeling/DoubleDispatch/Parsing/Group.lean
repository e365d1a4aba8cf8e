import DoubleDispatch.Parsing.Stream

/-!
# Balanced groups

A group runs from an opening delimiter to the one that closes it; in between every delimiter is
closed by its own kind, innermost first. Groups are passed over without a look at their content.
-/

namespace DoubleDispatch

namespace Stream

/-- A group that is open: the delimiter that will close it, and where it was opened. -/
structure OpenGroup where
  closer : TokenKind
  opened : Span
deriving DecidableEq, Repr, Inhabited

/-- The groups that are open behind a token, innermost first. -/
def groupsAfter (groups : List OpenGroup) (t : Token) : Except ParseError (List OpenGroup) :=
  match t.kind.closer? with
  | some closer => .ok (⟨closer, t.span⟩ :: groups)
  | none =>
    if t.kind.isCloser then
      match groups with
      | [] => .error (.rejected (.unexpected .openingDelimiter t.kind) t.span)
      | group :: outer =>
        if group.closer = t.kind then .ok outer
        else .error (.rejected (.unexpected (.token group.closer) t.kind) t.span)
    else if t.kind = .endOfFile then
      .error (.rejected .unclosedDelimiter ((groups.head?.map (·.opened)).getD t.span))
    else .ok groups

/-- Behind the token at which no group is open any more. -/
def skipGroups (groups : List OpenGroup) (prevEnd : Nat) : List Token → Except ParseError Stream
  | [] =>
    .error (.rejected .unclosedDelimiter ((groups.head?.map (·.opened)).getD ⟨prevEnd, prevEnd⟩))
  | t :: ts =>
    match groupsAfter groups t with
    | .error e => .error e
    | .ok [] => .ok ⟨ts, t.span.stop⟩
    | .ok (group :: outer) => skipGroups (group :: outer) t.span.stop ts

/-- Behind the group that starts with the next token. -/
def skipGroup (s : Stream) : Except ParseError Stream := skipGroups [] s.prevEnd s.ahead

/-- Skipping groups takes a token at least, so that what goes on behind it comes to an end. -/
theorem size_skipGroups_lt {groups : List OpenGroup} {prevEnd : Nat} {ts : List Token}
    {next : Stream} (h : skipGroups groups prevEnd ts = .ok next) : next.size < ts.length := by
  fun_induction skipGroups groups prevEnd ts with
  | case1 => cases h
  | case2 => cases h
  | case3 => cases h; exact Nat.lt_succ_self _
  | case4 _ _ _ _ _ _ _ ih => exact Nat.lt_succ_of_lt (ih h)

theorem size_skipGroup_lt {s next : Stream} (h : s.skipGroup = .ok next) :
    next.size < s.size :=
  size_skipGroups_lt h

end Stream

end DoubleDispatch
