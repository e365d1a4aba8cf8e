/-!
# Patterns for paths

A pattern stands for the texts that it matches as a whole: `?` for any character, `*` for any
characters, `[…]` and `[!…]` for a character of a class or not of it, and `**` between slashes for
any directories. Slashes are characters like all others for `?`, `*` and classes.

The program is run with these patterns; what is proved of runs holds for any others too.
-/

namespace DoubleDispatch

/-- A range of characters, ends included. -/
structure CharRange where
  first : Char
  last : Char
deriving DecidableEq, Repr, Inhabited

/-- Whether a character is in a range. -/
def CharRange.contains (r : CharRange) (c : Char) : Bool := r.first ≤ c && c ≤ r.last

/-- A part of a pattern. -/
inductive GlobToken where
  | literal (c : Char)
  | anyCharacter
  | within (ranges : List CharRange)
  | outside (ranges : List CharRange)
  /-- Any characters. -/
  | anything
  /-- Any directories: nothing, or what ends with a slash, or all that is left. -/
  | directories
deriving DecidableEq, Repr, Inhabited

/-- What is wrong with a pattern. -/
inductive GlobFault where
  | tooManyStars
  | starsInName
  | openClass
deriving DecidableEq, Repr, Inhabited

/-- A fault at a character, counted from zero. -/
structure GlobError where
  position : Nat
  fault : GlobFault
deriving DecidableEq, Repr, Inhabited

namespace GlobFault

/-- The wording of a fault. -/
def message : GlobFault → String
  | tooManyStars => "wildcards are either regular `*` or recursive `**`"
  | starsInName => "recursive wildcards must form a single path component"
  | openClass => "invalid range pattern"

end GlobFault

/-- The wording of an error. -/
def GlobError.message (e : GlobError) : String :=
  "Pattern syntax error near position " ++ toString e.position ++ ": " ++ e.fault.message

/-- A pattern: its parts in order. -/
abbrev Glob := List GlobToken

namespace Glob

/-! ### Reading patterns -/

/-- The ranges that a class names. A range `a-z` needs both ends; every other character is a range
of its own. -/
def ranges : List Char → List CharRange
  | first :: '-' :: last :: rest => ⟨first, last⟩ :: ranges rest
  | c :: rest => ⟨c, c⟩ :: ranges rest
  | [] => []

/-- The members of a class and what follows its closing bracket. A class has at least one member,
so a closing bracket at its start is one. -/
def classMembers? : List Char → Option (List Char × List Char)
  | [] => none
  | c :: rest =>
    match rest.dropWhile (· ≠ ']') with
    | _ :: behind => some (c :: rest.takeWhile (· ≠ ']'), behind)
    | [] => none

/-- A class behind its opening bracket, and what follows its closing bracket. -/
def charClass? : List Char → Option (GlobToken × List Char)
  | '!' :: rest => (classMembers? rest).map fun (cs, behind) ↦ (.outside (ranges cs), behind)
  | rest => (classMembers? rest).map fun (cs, behind) ↦ (.within (ranges cs), behind)

theorem length_lt_of_classMembers? {s cs behind : List Char}
    (h : classMembers? s = some (cs, behind)) : behind.length < s.length := by
  cases s with
  | nil => simp [classMembers?] at h
  | cons c rest =>
    have hle := (List.dropWhile_suffix (· ≠ ']') (l := rest)).length_le
    simp only [classMembers?] at h
    split at h
    · next heq =>
      simp only [Option.some.injEq, Prod.mk.injEq] at h
      rw [heq, h.2, List.length_cons] at hle
      simp only [List.length_cons]
      omega
    · cases h

/-- What follows a class is shorter than what follows its opening bracket. -/
theorem length_lt_of_charClass? {s behind : List Char} {token : GlobToken}
    (h : charClass? s = some (token, behind)) : behind.length < s.length := by
  unfold charClass? at h
  split at h <;> simp only [Option.map_eq_some_iff, Prod.exists, Prod.mk.injEq] at h <;>
    obtain ⟨cs, b, hb, -, rfl⟩ := h
  · exact Nat.lt_succ_of_lt (length_lt_of_classMembers? hb)
  · exact length_lt_of_classMembers? hb

/-- Reads the parts of a pattern. The position is that of the next character, and `previous` the
character before it. -/
def readFrom (position : Nat) (previous : Option Char) :
    List Char → Except GlobError (List GlobToken)
  | [] => .ok []
  | '?' :: rest => return .anyCharacter :: (← readFrom (position + 1) '?' rest)
  | '*' :: '*' :: '*' :: _ => .error ⟨position + 2, .tooManyStars⟩
  | '*' :: '*' :: rest =>
    if previous.all (· = '/') then
      match rest with
      | '/' :: rest => return .directories :: (← readFrom (position + 3) '/' rest)
      | [] => .ok [.directories]
      | _ => .error ⟨position + 2, .starsInName⟩
    else .error ⟨position - 1, .starsInName⟩
  | '*' :: rest => return .anything :: (← readFrom (position + 1) '*' rest)
  | '[' :: rest =>
    match h : charClass? rest with
    | some (token, behind) =>
      have := length_lt_of_charClass? h
      return token :: (← readFrom (position + 1 + (rest.length - behind.length)) ']' behind)
    | none => .error ⟨position, .openClass⟩
  | c :: rest => return .literal c :: (← readFrom (position + 1) c rest)
termination_by s => s.length

/-- Reads a pattern. -/
def read (pattern : String) : Except GlobError Glob := readFrom 0 none pattern.toList

/-! ### Matching -/

/-- The ends of a text, longest first. -/
def ends : List Char → List (List Char)
  | [] => [[]]
  | c :: s => (c :: s) :: ends s

/-- The ends of a text at which a directory may begin, and the empty end. -/
def directoryEnds (s : List Char) : List (List Char) :=
  s :: afterSlashes s
where
  /-- The ends behind the slashes of a text, and the empty end. -/
  afterSlashes : List Char → List (List Char)
    | [] => [[]]
    | c :: s => if c = '/' then s :: afterSlashes s else afterSlashes s

/-- Whether a text as a whole matches a pattern. -/
def accepts : Glob → List Char → Bool
  | [], s => s.isEmpty
  | .anything :: rest, s => (ends s).any (accepts rest)
  | .directories :: rest, s => (directoryEnds s).any (accepts rest)
  | _ :: _, [] => false
  | .literal c :: rest, d :: s => c = d && accepts rest s
  | .anyCharacter :: rest, _ :: s => accepts rest s
  | .within ranges :: rest, c :: s => ranges.any (·.contains c) && accepts rest s
  | .outside ranges :: rest, c :: s => !ranges.any (·.contains c) && accepts rest s

end Glob

end DoubleDispatch
