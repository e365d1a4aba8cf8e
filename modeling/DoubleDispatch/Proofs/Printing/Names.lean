import DoubleDispatch.Proofs.Printing.Reading
import DoubleDispatch.Proofs.Printing.Syntax

/-!
# Printed names are read back

A dotted name gives its parts joined by dots. A type name is cut out of the source from the start of
its first token to the end of its last one, so it gives its own text, however it is nested: the
automaton that reads it comes out of every type argument list with the angle brackets it went in
with.
-/

namespace DoubleDispatch

open Text (byteLength)
open Piece (textOf tokensAt kindOf)

namespace Stream

variable {source : List Char} {rest : List Piece} {s : Stream}

/-! ### Dotted names -/

/-- A dotted name is read back. -/
theorem Before.identifiers {first : Syntax.Name} {later : List Syntax.Name}
    (hrest : kindOf rest ≠ .dot)
    (h : Before source (.word first.toWord :: Syntax.DottedName.writeLater later rest) s) :
    ∃ next, Stream.identifiers s.prevEnd s.ahead =
      .ok ⟨(first :: later).map (·.name), next⟩ ∧ Before source rest next := by
  induction later generalizing first s with
  | nil =>
    refine ⟨s.advance, identifiers_last h.kind_eq ?_, h.word⟩
    rw [h.word.kind_eq]
    exact hrest
  | cons name names ih =>
    obtain ⟨next, hnames, hnext⟩ := ih h.word.mark
    refine ⟨next, ?_, hnext⟩
    rw [identifiers_dot h.kind_eq h.word.kind_eq, hnames]
    rfl

/-- **A dotted name is read back.** -/
theorem Before.dottedName {name : Syntax.DottedName} (hrest : kindOf rest ≠ .dot)
    (h : Before source (name.write rest) s) :
    ∃ next, s.dottedName = .ok ⟨name.text, next⟩ ∧ Before source rest next := by
  obtain ⟨next, hnames, hnext⟩ := Before.identifiers hrest h
  refine ⟨next, ?_, hnext⟩
  rw [Stream.dottedName, hnames]
  rfl

end Stream

/-! ### The text of a type name -/

namespace Syntax

variable {arrays : Bool}

mutual

/-- What is printed behind a type name does not change its text. -/
theorem TypeName.textOf_write (t : TypeName arrays) (rest : List Piece) :
    textOf (t.write rest) = textOf (t.write []) ++ textOf rest := by
  match t with
  | .word name => simp [TypeName.write]
  | .member outer joint name =>
    rw [TypeName.write, TypeName.write, outer.textOf_write, outer.textOf_write (_ :: _ :: [])]
    simp
  | .generic outer arguments =>
    rw [TypeName.write, TypeName.write, outer.textOf_write, outer.textOf_write (_ :: _),
      Piece.textOf_cons, Piece.textOf_cons, arguments.textOf_write, arguments.textOf_write [_]]
    simp
  | .array _ element rank =>
    rw [TypeName.write, TypeName.write, element.textOf_write, element.textOf_write [_]]
    simp

theorem TypeArguments.textOf_write (as : TypeArguments arrays) (rest : List Piece) :
    textOf (as.write rest) = textOf (as.write []) ++ textOf rest := by
  match as with
  | .last argument => exact argument.textOf_write rest
  | .more argument gap later =>
    rw [TypeArguments.write, TypeArguments.write, argument.textOf_write,
      argument.textOf_write (_ :: _), Piece.textOf_cons, Piece.textOf_cons, Piece.textOf_cons,
      Piece.textOf_cons, later.textOf_write]
    simp

end

/-- The name that a type name starts with. -/
def TypeName.head : TypeName arrays → Name
  | .word name => name
  | .member outer _ _ => outer.head
  | .generic outer _ => outer.head
  | .array _ element _ => element.head

/-- The marks that may follow the name that a type name starts with. -/
def GoesOnName (kind : TokenKind) : Prop :=
  kind = .dot ∨ kind = .doubleColon ∨ kind = .less ∨ kind = .openBracket

/-- A type name starts with a word, and what follows goes on with the name or stands behind it. -/
theorem TypeName.exists_write_eq_cons (t : TypeName arrays) (rest : List Piece) :
    ∃ ps, t.write rest = .word t.head.toWord :: ps ∧
      (kindOf ps = kindOf rest ∨ GoesOnName (kindOf ps)) := by
  match t with
  | .word name => exact ⟨rest, rfl, .inl rfl⟩
  | .member outer joint name =>
    obtain ⟨ps, hps, hkind⟩ := outer.exists_write_eq_cons
      (.mark joint.mark :: .word name.toWord :: rest)
    refine ⟨ps, hps, .inr ?_⟩
    rcases hkind with hkind | hkind
    · cases joint
      · exact .inl hkind
      · exact .inr (.inl hkind)
    · exact hkind
  | .generic outer arguments =>
    obtain ⟨ps, hps, hkind⟩ := outer.exists_write_eq_cons
      (.mark .less :: arguments.write (.mark .greater :: rest))
    refine ⟨ps, hps, .inr ?_⟩
    rcases hkind with hkind | hkind
    · exact .inr (.inr (.inl hkind))
    · exact hkind
  | .array _ element rank =>
    obtain ⟨ps, hps, hkind⟩ := element.exists_write_eq_cons (.group rank :: rest)
    refine ⟨ps, hps, .inr ?_⟩
    rcases hkind with hkind | hkind
    · exact .inr (.inr (.inr hkind))
    · exact hkind

theorem Name.toList_ne_nil (name : Name) : name.name.toList ≠ [] := by
  obtain ⟨c, s, hs, -⟩ := Text.exists_cons_of_isIdentifier name.isIdentifier
  rw [hs]
  nofun

/-- No character of a name is blank. -/
theorem Name.isBlank_eq_false (name : Name) : ∀ c ∈ name.name.toList, Text.isBlank c = false :=
  fun c hc ↦ Text.isBlank_of_continuesIdentifier
    (Text.continuesIdentifier_of_isIdentifier name.isIdentifier c hc)

/-- A type name ends with a name, an angle bracket or a square bracket. -/
theorem TypeName.exists_textOf_write_eq_append (t : TypeName arrays) :
    ∃ before last, textOf (t.write []) = before ++ last ∧ last ≠ [] ∧
      ∀ c ∈ last, Text.isBlank c = false := by
  cases t with
  | word name =>
    exact ⟨[], _, by simp [write, Piece.text], name.toList_ne_nil, name.isBlank_eq_false⟩
  | member outer joint name =>
    refine ⟨textOf (outer.write []) ++ joint.mark.text, _, ?_, name.toList_ne_nil,
      name.isBlank_eq_false⟩
    rw [write, outer.textOf_write]
    simp [Piece.text]
  | generic outer arguments =>
    refine ⟨textOf (outer.write []) ++ ('<' :: textOf (arguments.write [])), ['>'], ?_,
      List.cons_ne_nil _ _, List.forall_mem_singleton.2 (by decide)⟩
    rw [write, outer.textOf_write, Piece.textOf_cons, arguments.textOf_write]
    simp [Piece.text, Mark.text]
  | array allowed element rank =>
    refine ⟨textOf (element.write []) ++ ('[' :: rank.content), [']'], ?_,
      List.cons_ne_nil _ _, List.forall_mem_singleton.2 (by decide)⟩
    rw [write, element.textOf_write]
    simp [Piece.text, Mark.text, Group.text, Delimiter.enclose, Delimiter.opening,
      Delimiter.closing]

/-- A type name has no white space around it. -/
theorem TypeName.trim_textOf_write (t : TypeName arrays) :
    Text.trim (textOf (t.write [])) = textOf (t.write []) := by
  refine Text.trim_eq_self ?_ ?_
  · intro c hc
    obtain ⟨ps, hps, -⟩ := t.exists_write_eq_cons []
    rw [hps, Piece.textOf_cons, Piece.text,
      List.head?_append_of_ne_nil _ t.head.toList_ne_nil] at hc
    exact t.head.isBlank_eq_false c (List.mem_of_mem_head? hc)
  · intro c hc
    obtain ⟨before, last, htext, hne, hlast⟩ := t.exists_textOf_write_eq_append
    rw [htext, List.getLast?_append_of_ne_nil _ hne] at hc
    exact hlast c (List.mem_of_mem_getLast? hc)

/-- The bytes that a type name takes. -/
def TypeName.width (t : TypeName arrays) : Nat := byteLength (textOf (t.write []))

/-- The bytes that type arguments take. -/
def TypeArguments.width (as : TypeArguments arrays) : Nat := byteLength (textOf (as.write []))

section Width

variable (outer : TypeName arrays) (arguments : TypeArguments arrays) (name : Name)

/-- A printed type name takes its width. -/
theorem TypeName.byteLength_write (t : TypeName arrays) (rest : List Piece) :
    byteLength (textOf (t.write rest)) = t.width + byteLength (textOf rest) := by
  rw [t.textOf_write, Text.byteLength_append, width]

/-- Printed type arguments take their width. -/
theorem TypeArguments.byteLength_write (as : TypeArguments arrays) (rest : List Piece) :
    byteLength (textOf (as.write rest)) = as.width + byteLength (textOf rest) := by
  rw [as.textOf_write, Text.byteLength_append, width]

theorem TypeName.width_word : (word name : TypeName arrays).width =
    byteLength name.name.toList := by
  simp [width, write, Piece.text]

theorem TypeName.width_member (joint : Joint) : (member outer joint name).width =
    outer.width + byteLength joint.mark.text + byteLength name.name.toList := by
  rw [width, write, byteLength_write]
  simp [Piece.text, Nat.add_assoc]

theorem TypeName.width_generic : (generic outer arguments).width =
    outer.width + 1 + arguments.width + 1 := by
  have harguments := arguments.byteLength_write [.mark .greater]
  rw [width, write, byteLength_write, Piece.textOf_cons, Text.byteLength_append, harguments]
  show outer.width + (1 + (arguments.width + 1)) = _
  omega

theorem TypeName.width_array (allowed : arrays = true) (rank : Group .bracket) :
    (array allowed outer rank).width = outer.width + byteLength rank.text := by
  rw [width, write, byteLength_write]
  simp [Piece.text]

theorem TypeArguments.width_more (argument : TypeName arrays) (gap : Blank)
    (later : TypeArguments arrays) : (more argument gap later).width =
      argument.width + 1 + byteLength gap.text + later.width := by
  rw [width, write, argument.byteLength_write, Piece.textOf_cons, Piece.textOf_cons,
    Text.byteLength_append, Text.byteLength_append]
  show argument.width + (1 + (byteLength gap.text + later.width)) = _
  omega

end Width

end Syntax

namespace Stream

open Syntax (TypeName TypeArguments)

variable {arrays : Bool} {source : List Char} {rest : List Piece} {s : Stream}

/-! ### Reading on through a type name -/

/-- A token that goes on with a name is taken. -/
theorem readName_cons {st st' : NameState} {t : Token} (h : st.next? t.kind = some st')
    (prevEnd : Nat) (ts : List Token) :
    readName st prevEnd (t :: ts) = readName st' t.span.stop ts := by
  rw [readName, h]

/-- A word goes on with a name where one is awaited, and inside angle brackets. -/
theorem next?_identifier {depth : Nat} {awaits : Bool} (h : awaits = true ∨ 0 < depth)
    (name : String) :
    NameState.next? ⟨depth, awaits⟩ (.identifier name) = some ⟨depth, false⟩ := by
  rcases h with rfl | h
  · rfl
  · simp [NameState.next?, h]

mutual

/-- **A type name is read as a whole**: behind it the automaton is where it was before it, with no
name to come. -/
theorem readName_typeName (t : TypeName false) {depth : Nat} {awaits : Bool}
    (h : awaits = true ∨ 0 < depth) (prevEnd n : Nat) (rest : List Piece) :
    readName ⟨depth, awaits⟩ prevEnd (tokensAt n (t.write rest)) =
      readName ⟨depth, false⟩ (n + t.width) (tokensAt (n + t.width) rest) := by
  match t with
  | .word name =>
    rw [TypeName.write, TypeName.width_word]
    exact readName_cons (next?_identifier h _) prevEnd _
  | .member outer joint name =>
    have hjoint : NameState.next? ⟨depth, false⟩ joint.mark.kind = some ⟨depth, true⟩ := by
      cases joint <;> rfl
    rw [TypeName.write, readName_typeName outer h, outer.width_member]
    simp only [← Nat.add_assoc]
    refine (readName_cons hjoint _ _).trans ?_
    exact readName_cons (next?_identifier (.inl rfl) _) _ _
  | .generic outer arguments =>
    have hclose : NameState.next? ⟨depth + 1, false⟩ .greater = some ⟨depth, false⟩ := by
      simp [NameState.next?]
    rw [TypeName.write, readName_typeName outer h, outer.width_generic]
    simp only [← Nat.add_assoc]
    calc readName ⟨depth, false⟩ (n + outer.width)
          (tokensAt (n + outer.width) (.mark .less :: arguments.write (.mark .greater :: rest)))
      _ = readName ⟨depth + 1, true⟩ (n + outer.width + 1)
          (tokensAt (n + outer.width + 1) (arguments.write (.mark .greater :: rest))) :=
        readName_cons rfl _ _
      _ = readName ⟨depth + 1, false⟩ (n + outer.width + 1 + arguments.width)
          (tokensAt (n + outer.width + 1 + arguments.width) (.mark .greater :: rest)) :=
        readName_typeArguments arguments (Nat.succ_pos depth) _ _ _
      _ = _ := readName_cons hclose _ _

/-- Type arguments are read over, by recursion over type names. -/
theorem readName_typeArguments (as : TypeArguments false) {depth : Nat} {awaits : Bool}
    (h : 0 < depth) (prevEnd n : Nat) (rest : List Piece) :
    readName ⟨depth, awaits⟩ prevEnd (tokensAt n (as.write rest)) =
      readName ⟨depth, false⟩ (n + as.width) (tokensAt (n + as.width) rest) := by
  match as with
  | .last argument => exact readName_typeName argument (.inr h) prevEnd n rest
  | .more argument gap later =>
    have hcomma : NameState.next? ⟨depth, false⟩ .comma = some ⟨depth, false⟩ := by
      simp [NameState.next?, h]
    rw [TypeArguments.write, readName_typeName argument (.inr h), TypeArguments.width_more]
    simp only [← Nat.add_assoc]
    refine (readName_cons hcomma _ _).trans ?_
    exact readName_typeArguments later h _ _ _

end

/-- A token at which a complete name ends. -/
def EndsName (kind : TokenKind) : Prop := NameState.next? ⟨0, false⟩ kind = none

/-- A name ends before a token that does not go on with it. -/
theorem readName_of_endsName (h : EndsName (kindOf rest)) (prevEnd n : Nat) :
    readName ⟨0, false⟩ prevEnd (tokensAt n rest) = ⟨⟨0, false⟩, ⟨tokensAt n rest, prevEnd⟩⟩ := by
  obtain ⟨t, ts, htokens, hkind⟩ := Piece.exists_tokensAt_eq_cons n rest
  have hnone : NameState.next? ⟨0, false⟩ t.kind = none := by
    rw [hkind]
    exact h
  rw [htokens, readName, hnone]

/-- A printed type name starts where the stream stands before it. -/
theorem start_eq {t : TypeName arrays} {n : Nat} (h : s.ahead = tokensAt n (t.write rest)) :
    s.start = n := by
  obtain ⟨ps, hps, -⟩ := t.exists_write_eq_cons rest
  rw [hps] at h
  rw [start, span, h]
  rfl

/-- Before a type name the stream stands before a name, and the token behind it is the one behind
the type name or one that goes on with it. -/
theorem Before.head {t : TypeName arrays} (h : Before source (t.write rest) s) :
    s.kind = .identifier t.head.name ∧
      (s.secondKind = kindOf rest ∨ Syntax.GoesOnName s.secondKind) := by
  obtain ⟨ps, hps, hkind⟩ := t.exists_write_eq_cons rest
  rw [hps] at h
  rw [h.secondKind_eq]
  exact ⟨h.kind_eq, hkind⟩

/-- **A printed name is read back** where something stands behind it that does not go on with it. -/
theorem Before.typeName? {target : Syntax.Target} (hends : EndsName (kindOf rest))
    (h : Before source (target.name.write rest) s) :
    ∃ next, s.typeName? source = some ⟨target.name.text, next⟩ ∧ Before source rest next := by
  obtain ⟨passed, hsource, hahead⟩ := h
  have hname : readName ⟨0, true⟩ s.prevEnd s.ahead = ⟨⟨0, false⟩,
      ⟨tokensAt (byteLength passed + target.name.width) rest,
        byteLength passed + target.name.width⟩⟩ := by
    rw [hahead, readName_typeName target.name (.inl rfl), readName_of_endsName hends]
  have hslice : Text.slice s.start (byteLength passed + target.name.width) source =
      target.name.text.toList := by
    rw [start_eq hahead, hsource, target.name.textOf_write, TypeName.text, String.toList_ofList]
    exact Text.slice_append _ _ _
  have hplain : withoutGlobal target.name.text.toList = target.name.text.toList := by
    rw [withoutGlobal, target.notGlobal]
    rfl
  refine ⟨⟨tokensAt (byteLength passed + target.name.width) rest,
    byteLength passed + target.name.width⟩, ?_, passed ++ textOf (target.name.write []), ?_, ?_⟩
  · rw [Stream.typeName?, hname]
    dsimp only
    rw [hslice, hplain, String.ofList_toList]
    rfl
  · rw [hsource, target.name.textOf_write, List.append_assoc]
  · rw [Text.byteLength_append]
    rfl

end Stream

end DoubleDispatch
