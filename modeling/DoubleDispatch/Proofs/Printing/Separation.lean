import DoubleDispatch.Proofs.Printing.Syntax

/-!
# Printed pieces are separate

In what is printed no piece goes on into the next one: behind every word there is a mark, a group or
white space, and behind every colon a space. Each form is printed in front of what stands behind it,
so each lemma says that a form keeps separate what is.
-/

namespace DoubleDispatch

namespace Syntax

open Piece (Breaks Separated textOf)

variable {arrays : Bool} {rest : List Piece}

/-! ### Names -/

/-- No part of a name is joined by one colon, which a second one would go on. -/
theorem Joint.mark_ne_colon (joint : Joint) : joint.mark ≠ .colon := by cases joint <;> nofun

/-- The identifiers of a dotted name have dots between them. -/
theorem DottedName.separated_write (n : DottedName) (hbreaks : Breaks rest) (h : Separated rest) :
    Separated (n.write rest) := by
  have hlater (names : List Name) :
      Breaks (writeLater names rest) ∧ Separated (writeLater names rest) := by
    induction names with
    | nil => exact ⟨hbreaks, h⟩
    | cons name names ih => simpa [writeLater] using ih
  exact Piece.separated_word.2 (hlater n.later)

mutual

/-- A type name is separate from what does not go on from it, by recursion over its arguments. -/
theorem TypeName.separated_write (t : TypeName arrays) {rest : List Piece} (hbreaks : Breaks rest)
    (h : Separated rest) : Separated (t.write rest) := by
  match t with
  | .word name => exact Piece.separated_word.2 ⟨hbreaks, h⟩
  | .member outer joint name =>
    have hname : Separated (.word name.toWord :: rest) := Piece.separated_word.2 ⟨hbreaks, h⟩
    rw [TypeName.write]
    exact outer.separated_write (Piece.breaks_mark _)
      ((Piece.separated_mark joint.mark_ne_colon).2 hname)
  | .generic outer arguments =>
    have hclose : Separated (.mark .greater :: rest) := (Piece.separated_mark (by decide)).2 h
    have harguments := arguments.separated_write (Piece.breaks_mark _) hclose
    rw [TypeName.write]
    exact outer.separated_write (Piece.breaks_mark _)
      ((Piece.separated_mark (by decide)).2 harguments)
  | .array _ element rank =>
    rw [TypeName.write]
    exact element.separated_write (Piece.breaks_group _) (Piece.separated_group.2 h)

/-- Type arguments are separate: a comma stands between two of them. -/
theorem TypeArguments.separated_write (as : TypeArguments arrays) {rest : List Piece}
    (hbreaks : Breaks rest) (h : Separated rest) : Separated (as.write rest) := by
  match as with
  | .last argument => exact argument.separated_write hbreaks h
  | .more argument gap later =>
    have hlater := later.separated_write hbreaks h
    rw [TypeArguments.write]
    exact argument.separated_write (Piece.breaks_mark _)
      ((Piece.separated_mark (by decide)).2 (Piece.separated_blank.2 hlater))

end

/-! ### Using directives -/

theorem UsingForm.separated_write (form : UsingForm) (h : Separated rest) :
    Separated (form.write rest) := by
  cases form <;> simpa [write] using h

/-- A directive is separate, as blanks stand between its words. -/
theorem Using.separated_write (u : Using) (h : Separated rest) : Separated (u.write rest) := by
  have htarget : Separated (u.target.name.write (.mark .semicolon :: rest)) :=
    u.target.name.separated_write (Piece.breaks_mark _) (by simpa using h)
  have hlocal : Separated (u.writeLocal rest) := by
    simpa [writeLocal] using u.form.separated_write htarget
  rw [write]
  split
  · simpa using hlocal
  · exact hlocal

/-- Directives in lines of their own are separate. -/
theorem Using.separated_writeLines (depth : Nat) (us : List Using) (h : Separated rest) :
    Separated (writeLines depth us rest) := by
  induction us with
  | nil => exact h
  | cons u us ih =>
    rw [writeLines, Piece.separated_blank]
    exact u.separated_write (Piece.separated_blank.2 ih)

/-! ### Attributes -/

/-- An attribute is separate from what does not go on from its name. -/
theorem Attribute.separated_write (a : Attribute) (hbreaks : Breaks rest) (h : Separated rest) :
    Separated (a.write rest) := by
  obtain ⟨name, _ | arguments⟩ := a
  · exact name.name.separated_write hbreaks h
  · exact name.name.separated_write (Piece.breaks_group _) (Piece.separated_group.2 h)

/-- A section is separate from anything, as it ends with a bracket. -/
theorem Section.separated_write (s : Section) (h : Separated rest) :
    Separated (s.write rest) := by
  have hlater (as : List Attribute) :
      Breaks (Attribute.writeLater as (.mark .closeBracket :: rest)) ∧
        Separated (Attribute.writeLater as (.mark .closeBracket :: rest)) := by
    induction as with
    | nil => simpa [Attribute.writeLater] using h
    | cons a as ih =>
      simpa [Attribute.writeLater] using a.separated_write ih.1 ih.2
  have hattributes := s.first.separated_write (hlater s.later).1 (hlater s.later).2
  rw [write]
  cases s.target with
  | none => simpa [writeTarget] using hattributes
  | some target => simpa [writeTarget] using hattributes

/-- Sections in lines of their own are separate. -/
theorem Section.separated_writeLines (depth : Nat) (ss : List Section) (h : Separated rest) :
    Separated (writeLines depth ss rest) := by
  induction ss with
  | nil => exact h
  | cons s ss ih =>
    rw [writeLines]
    exact s.separated_write (Piece.separated_blank.2 (Piece.separated_blank.2 ih))

/-! ### Types -/

theorem separated_writeKind (kind : TypeKind) (hbreaks : Breaks rest) (h : Separated rest) :
    Separated (writeKind kind rest) := by
  cases kind <;> simpa [writeKind] using ⟨hbreaks, h⟩

/-- Modifiers have a blank behind each of them. -/
theorem separated_writeModifiers (ms : List Modifier) (h : Separated rest) :
    Separated (writeModifiers ms rest) := by
  induction ms with
  | nil => exact h
  | cons m ms ih => simpa [writeModifiers] using ih

/-- Type parameters are separate, and no identifier goes on into their bracket. -/
theorem separated_writeTypeParameters (names : List Name) (hbreaks : Breaks rest)
    (h : Separated rest) :
    Breaks (writeTypeParameters names rest) ∧ Separated (writeTypeParameters names rest) := by
  have hlater (names : List Name) :
      Breaks (writeLaterNames names (.mark .greater :: rest)) ∧
        Separated (writeLaterNames names (.mark .greater :: rest)) := by
    induction names with
    | nil => simpa [writeLaterNames] using h
    | cons name names ih => simpa [writeLaterNames] using ih
  cases names with
  | nil => exact ⟨hbreaks, h⟩
  | cons name names => simpa [writeTypeParameters] using hlater names

/-- Base entries are separate, and no identifier goes on into the colon before them. -/
theorem separated_writeBases (bases : List (TypeName true)) (hbreaks : Breaks rest)
    (h : Separated rest) :
    Breaks (writeBases bases rest) ∧ Separated (writeBases bases rest) := by
  have hlater (bases : List (TypeName true)) :
      Breaks (writeLaterBases bases rest) ∧ Separated (writeLaterBases bases rest) := by
    induction bases with
    | nil => exact ⟨hbreaks, h⟩
    | cons base bases ih => simpa [writeLaterBases] using base.separated_write ih.1 ih.2
  cases bases with
  | nil => exact ⟨hbreaks, h⟩
  | cons base bases =>
    simpa [writeBases] using base.separated_write (hlater bases).1 (hlater bases).2

/-- **A printed declaration is separate** from anything, as it ends with a brace. -/
theorem Declaration.separated_write (d : Declaration) (depth : Nat) (h : Separated rest) :
    Separated (d.write depth rest) := by
  have hbody :
      Separated (.blank .lineBreak :: .blank (.indent depth) :: .group d.body :: rest) := by
    simpa using h
  have hbases := separated_writeBases d.bases Piece.breaks_lineBreak hbody
  have hparameters := separated_writeTypeParameters d.typeParameters hbases.1 hbases.2
  have hname : Separated (d.writeName depth rest) := Piece.separated_word.2 hparameters
  refine Section.separated_writeLines depth d.sections (separated_writeModifiers d.modifiers ?_)
  exact separated_writeKind d.kind Piece.breaks_space (Piece.separated_blank.2 hname)

/-! ### Members and files -/

/-- **Printed members are separate**, by recursion over namespaces. -/
theorem Members.separated_write (m : Members) (depth : Nat) {rest : List Piece}
    (h : Separated rest) : Separated (m.write depth rest) := by
  induction m generalizing depth rest with
  | nil => exact h
  | type declaration later ih =>
    rw [write, Piece.separated_blank]
    exact declaration.separated_write depth (Piece.separated_blank.2 (ih depth h))
  | scope name usings content later ihcontent ihlater =>
    have hclose : Separated (.blank (.indent depth) :: .mark .closeBrace :: .blank .lineBreak ::
        later.write depth rest) := by simpa using ihlater depth h
    have hbody := Using.separated_writeLines (depth + 1) usings (ihcontent (depth + 1) hclose)
    rw [write, Piece.separated_blank, Piece.separated_word, Piece.separated_blank]
    refine ⟨Piece.breaks_space, name.separated_write Piece.breaks_lineBreak ?_⟩
    simpa using hbody
  | fileScoped name usings content ih =>
    have hbody := Using.separated_writeLines depth usings (ih depth h)
    rw [write, Piece.separated_blank, Piece.separated_word, Piece.separated_blank]
    refine ⟨Piece.breaks_space, name.separated_write (Piece.breaks_mark _) ?_⟩
    simpa using hbody

theorem File.separated_write (f : File) : Separated f.write :=
  Using.separated_writeLines 0 f.usings (f.members.separated_write 0 trivial)

/-- The tokens of the text of a file are those of its pieces. -/
theorem File.tokenize_text (f : File) : tokenize f.text = .ok (Piece.tokensAt 0 f.write) :=
  Piece.tokenize_textOf f.separated_write

end Syntax

end DoubleDispatch
