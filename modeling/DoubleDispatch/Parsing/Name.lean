import DoubleDispatch.Parsing.Stream

/-!
# Names

A dotted name is rebuilt from its identifiers. A type name, which may be qualified and carry type
arguments, is kept as it is written; an automaton over the kinds of token says how far it reaches.
-/

namespace DoubleDispatch

namespace Stream

/-- The identifiers of a dotted name. -/
def identifiers (prevEnd : Nat) : List Token → Except ParseError (Parsed (List String))
  | ⟨.identifier name, _⟩ :: ⟨.dot, dotSpan⟩ :: ts => do
    let names ← identifiers dotSpan.stop ts
    return ⟨name :: names.value, names.rest⟩
  | ⟨.identifier name, span⟩ :: ts => .ok ⟨[name], ⟨ts, span.stop⟩⟩
  | ts => .error (Stream.unexpected ⟨ts, prevEnd⟩ .identifier)

/-- A dotted name such as that of a namespace. -/
def dottedName (s : Stream) : Except ParseError (Parsed String) := do
  let names ← identifiers s.prevEnd s.ahead
  return ⟨".".intercalate names.value, names.rest⟩

/-- How far a type name has been read: the number of open type-argument lists, and whether an
identifier is still to come. -/
structure NameState where
  depth : Nat
  awaits : Bool
deriving DecidableEq, Repr, Inhabited

namespace NameState

/-- The state behind one more token, if the name goes on with it. -/
def next? (st : NameState) : TokenKind → Option NameState
  | .identifier _ => if st.awaits || 0 < st.depth then some { st with awaits := false } else none
  | .dot | .doubleColon => if st.awaits then none else some { st with awaits := true }
  | .less => if st.awaits then none else some ⟨st.depth + 1, true⟩
  | .comma | .question => if 0 < st.depth then some st else none
  | .greater => if 0 < st.depth then some { st with depth := st.depth - 1 } else none
  | _ => none

/-- Whether a name may end here. -/
def isComplete (st : NameState) : Bool := !st.awaits && st.depth == 0

end NameState

/-- Reads on for as long as the name goes on. -/
def readName (st : NameState) (prevEnd : Nat) : List Token → Parsed NameState
  | [] => ⟨st, ⟨[], prevEnd⟩⟩
  | t :: ts =>
    match st.next? t.kind with
    | some st => readName st t.span.stop ts
    | none => ⟨st, ⟨t :: ts, prevEnd⟩⟩

/-- The text without a leading `global::`. -/
def withoutGlobal (text : List Char) : List Char :=
  let mark := "global::".toList
  if mark.isPrefixOf text then text.drop mark.length else text

/-- A type or namespace name as it is written, without a leading `global::`. -/
def typeName? (source : List Char) (s : Stream) : Option (Parsed String) :=
  let name := readName ⟨0, true⟩ s.prevEnd s.ahead
  if name.value.isComplete then
    some ⟨String.ofList (withoutGlobal (Text.slice s.start name.rest.prevEnd source)), name.rest⟩
  else none

/-- A dotted name takes an identifier at least. -/
theorem size_identifiers_lt {prevEnd : Nat} {ts : List Token} {names : Parsed (List String)}
    (h : identifiers prevEnd ts = .ok names) : names.rest.size < ts.length := by
  fun_induction identifiers prevEnd ts generalizing names with
  | case1 _ _ _ _ _ ih =>
    obtain ⟨later, hl, he⟩ := exists_of_bind_eq_ok h
    have hlt := ih hl
    cases he
    exact Nat.lt_succ_of_lt (Nat.lt_succ_of_lt hlt)
  | case2 => cases h; exact Nat.lt_succ_self _
  | case3 => cases h

theorem size_dottedName_lt {s : Stream} {name : Parsed String} (h : s.dottedName = .ok name) :
    name.rest.size < s.size := by
  obtain ⟨names, hn, he⟩ := exists_of_bind_eq_ok h
  cases he
  exact size_identifiers_lt hn

/-- Reading a name takes no token that is not ahead. -/
theorem size_readName_le (st : NameState) (prevEnd : Nat) (ts : List Token) :
    (readName st prevEnd ts).rest.size ≤ ts.length := by
  fun_induction readName st prevEnd ts with
  | case1 => exact Nat.le_refl _
  | case2 _ _ _ _ _ _ ih => exact Nat.le_succ_of_le ih
  | case3 => exact Nat.le_refl _

/-- A type name takes a token at least. -/
theorem size_typeName?_lt {source : List Char} {s : Stream} {name : Parsed String}
    (h : s.typeName? source = some name) : name.rest.size < s.size := by
  simp only [typeName?, size] at h ⊢
  split at h
  next hc =>
    cases h
    cases ha : s.ahead with
    | nil => simp [ha, readName, NameState.isComplete] at hc
    | cons t ts =>
      rw [ha, readName] at hc
      rw [readName]
      cases hs : NameState.next? ⟨0, true⟩ t.kind with
      | none => simp [hs, NameState.isComplete] at hc
      | some st => exact Nat.lt_succ_of_le (size_readName_le _ _ _)
  next => cases h

end Stream

end DoubleDispatch
